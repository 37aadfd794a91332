import Iroh.Common.EState
import Iroh.Qng.Frames

/-!
# Packing 1-RTT packets

Reference: `internal/qng/packet_packer.go`.

Each packer decides which frames go into the next packet.  What it finds in the queues it draws from
is an argument.  The acknowledgement of path 0 has a place of its own in the payload; that of another
path is one of its frames.

Sealing needs a key, which is there after the handshake; the order of the frames is shuffled, which
nothing reads.
-/

namespace Iroh.Qng

open List

/-! ## Payloads -/

def framesLength : List Frame → ℕ
  | [] => 0
  | f :: frames => f.length + framesLength frames

def streamFramesLength : List StreamFrame → ℕ
  | [] => 0
  | f :: frames => f.length + streamFramesLength frames

structure Payload where
  streamFrame : Option StreamFrame
  streamFrames : List StreamFrame
  frames : List Frame
  ack : Option AckFrame
deriving DecidableEq

namespace Payload

def empty : Payload := ⟨none, [], [], none⟩

/-- The field `length`, which `appendPacketPayload` checks. -/
def length (pl : Payload) : ℕ :=
  pl.ack.elim 0 AckFrame.length + framesLength pl.frames +
    pl.streamFrame.elim 0 StreamFrame.length + streamFramesLength pl.streamFrames

def numStreamFrames (pl : Payload) : ℕ :=
  if pl.streamFrame.isSome then 1 else pl.streamFrames.length

end Payload

structure ShortHeader where
  connIDLen : ℕ
  pnLen : ℕ
deriving DecidableEq

def ShortHeader.len (hdr : ShortHeader) : ℕ := 1 + hdr.connIDLen + hdr.pnLen

/-- `sealer.Overhead`: the tag of each of the three ciphers. -/
def sealerOverhead : ℕ := 16

def minInitialPacketSize : ℕ := 1200

def shortHeaderPacketLength (hdr : ShortHeader) (pl : Payload) : ℕ :=
  hdr.len + pl.length + (4 - hdr.pnLen - pl.length)

/-- `shortHeaderPacket`.  Its number is that of the next packet of its path. -/
structure ShortHeaderPacket where
  pathID : ℕ
  frames : List Frame
  streamFrame : Option StreamFrame
  streamFrames : List StreamFrame
  ack : Option AckFrame
  length : ℕ
  isPathMTUProbePacket : Bool
  isPathProbePacket : Bool
deriving DecidableEq

inductive PackError where
  /-- `errNothingToPack`. -/
  | nothingToPack
  /-- `PacketPacker BUG: packet too large`. -/
  | tooLarge (size allowed : ℕ)
deriving DecidableEq

def appendShortHeaderPacket (hdr : ShortHeader) (pid : ℕ) (pl : Payload) (padding maxPacketSize : ℕ)
    (isMTUProbePacket : Bool) : Except PackError ShortHeaderPacket :=
  let size := shortHeaderPacketLength hdr pl + padding + sealerOverhead
  if !isMTUProbePacket && maxPacketSize < size then .error (.tooLarge size maxPacketSize)
  else .ok
    { pathID := pid
      frames := pl.frames
      streamFrame := pl.streamFrame
      streamFrames := pl.streamFrames
      ack := pl.ack
      length := size
      isPathMTUProbePacket := isMTUProbePacket
      isPathProbePacket := false }

/-! ## Packets on path 0 -/

/-- What a packer finds: what `GetAckFrame` returns, the next datagram, the frames to retransmit, what
the framer appends, and the number of packets with only an ACK since the last other one. -/
structure Queues where
  ack : Option AckFrame
  datagram : Option Bytes
  retransmissions : List ControlFrame
  hasData : Bool
  controlFrames : List ControlFrame
  streamFrame : Option StreamFrame
  streamFrames : List StreamFrame
  numNonAckElicitingAcks : ℕ

def minStreamFrameSize : ℕ := 128

/-- The loop over `retransmissionQueue.GetFrame`. -/
def takeRetransmissions : ℕ → List ControlFrame → List ControlFrame
  | _, [] => []
  | remainingLen, f :: rest =>
    if remainingLen < minStreamFrameSize then []
    else if remainingLen < f.length then []
    else f :: takeRetransmissions (remainingLen - f.length) rest

/-- The next datagram, if it fits; otherwise it waits, or is dropped if there is no ACK. -/
def fittingDatagram (maxPayloadSize ackLen : ℕ) (q : Queues) : List Frame :=
  (q.datagram.toList.map Frame.datagram).filter fun f => ackLen + f.length ≤ maxPayloadSize

/-- The frames that `composeNextPacket` puts after the ACK. -/
def composeFrames (maxPayloadSize : ℕ) (ack : Option AckFrame) (q : Queues) : Payload :=
  let ackLen := ack.elim 0 AckFrame.length
  let datagram := fittingDatagram maxPayloadSize ackLen q
  if ack.isSome && !q.hasData && q.retransmissions.isEmpty then ⟨none, [], datagram, ack⟩
  else
    let remainingLen := maxPayloadSize - (ackLen + framesLength datagram)
    let retransmitted := (takeRetransmissions remainingLen q.retransmissions).map Frame.control
    if q.hasData then
      ⟨q.streamFrame, q.streamFrames, datagram ++ retransmitted ++ q.controlFrames.map .control, ack⟩
    else ⟨none, [], datagram ++ retransmitted, ack⟩

def composeNextPacket (maxPayloadSize : ℕ) (onlyAck ackAllowed : Bool) (q : Queues) : Payload :=
  if onlyAck then
    let ack := q.ack.map (·.truncate maxPayloadSize)
    let remainingLen := maxPayloadSize - ack.elim 0 AckFrame.length
    let retransmitted := takeRetransmissions remainingLen q.retransmissions
    ⟨none, [], (retransmitted ++ q.controlFrames).map .control, ack⟩
  else
    composeFrames maxPayloadSize (if ackAllowed then q.ack.map (·.truncate maxPayloadSize) else none) q

def maxNonAckElicitingAcks : ℕ := 19

def maybeGetAppDataPacket (maxPayloadSize : ℕ) (onlyAck ackAllowed : Bool) (q : Queues) : Payload :=
  let pl := composeNextPacket maxPayloadSize onlyAck ackAllowed q
  if pl.frames.isEmpty && pl.numStreamFrames = 0 then
    if pl.ack.isNone then .empty
    else if maxNonAckElicitingAcks ≤ q.numNonAckElicitingAcks then
      { pl with frames := pl.frames ++ [.control .ping] }
    else pl
  else pl

/-- `appendPacket`, for `AppendPacket` and `PackAckOnlyPacket`. -/
def appendPacket (hdr : ShortHeader) (onlyAck : Bool) (maxPacketSize : ℕ) (q : Queues) :
    Except PackError ShortHeaderPacket :=
  let pl := maybeGetAppDataPacket (maxPacketSize - hdr.len - sealerOverhead) onlyAck true q
  if pl.length = 0 then .error .nothingToPack
  else appendShortHeaderPacket hdr 0 pl 0 maxPacketSize false

def packPTOProbePacket1RTT (hdr : ShortHeader) (maxPacketSize : ℕ) (addPingIfEmpty : Bool)
    (q : Queues) : Except PackError ShortHeaderPacket :=
  let pl := maybeGetAppDataPacket (maxPacketSize - sealerOverhead - hdr.len) false true q
  if 0 < pl.numStreamFrames || hasAckElicitingFrames pl.frames then
    appendShortHeaderPacket hdr 0 pl 0 maxPacketSize false
  else if !addPingIfEmpty && pl.length = 0 then .error .nothingToPack
  else
    let pl := { pl with frames := pl.frames ++ [.control .ping] }
    appendShortHeaderPacket hdr 0 pl 0 maxPacketSize false

def packMTUProbePacket (hdr : ShortHeader) (size : ℕ) : Except PackError ShortHeaderPacket :=
  let pl : Payload := ⟨none, [], [.control .ping], none⟩
  appendShortHeaderPacket hdr 0 pl (size - shortHeaderPacketLength hdr pl - sealerOverhead) size true

def packPathProbePacket (hdr : ShortHeader) (frames : List ControlFrame) :
    Except PackError ShortHeaderPacket := do
  let pl : Payload := ⟨none, [], frames.map .control, none⟩
  let padding := minInitialPacketSize - shortHeaderPacketLength hdr pl - sealerOverhead
  let packet ← appendShortHeaderPacket hdr 0 pl padding minInitialPacketSize false
  return { packet with isPathProbePacket := true }

/-- The loop of `maybeGetAppDataPacketForPath` over the datagrams: those that fit. -/
def fittingDatagrams : ℕ → List Bytes → List Bytes
  | _, [] => []
  | remainingLen, data :: rest =>
    let size := (Frame.datagram data).length
    if remainingLen < size then [] else data :: fittingDatagrams (remainingLen - size) rest

/-- `maybeGetAppDataPacketForPath`, where `ack` is what `GetAckFrameForPath` returns. -/
def maybeGetAppDataPacketForPath (pid : ℕ) (ack : Option AckFrame) (datagrams : List Bytes)
    (maxPayloadSize : ℕ) : Payload × ℕ :=
  let pathAck := (ack.toList.map (Frame.pathAck pid)).filter fun f => f.length ≤ maxPayloadSize
  let packed := fittingDatagrams (maxPayloadSize - framesLength pathAck) datagrams
  (⟨none, [], pathAck ++ packed.map .datagram, none⟩, packed.length)

/-- `AppendPacketForPath`; there is no header without a connection ID for the path. -/
def appendPacketForPath (hdr : Option ShortHeader) (pid : ℕ) (ack : Option AckFrame)
    (datagrams : List Bytes) (maxSize : ℕ) : Except PackError (ShortHeaderPacket × ℕ) :=
  match hdr with
  | none => .error .nothingToPack
  | some hdr => do
      let (pl, packed) :=
        maybeGetAppDataPacketForPath pid ack datagrams (maxSize - hdr.len - sealerOverhead)
      if pl.length = 0 then throw .nothingToPack
      let packet ← appendShortHeaderPacket hdr pid pl 0 maxSize false
      return (packet, packed)

def packPathFramesPacket (hdr : ShortHeader) (pid : ℕ) (frames : List ControlFrame)
    (maxPacketSize : ℕ) : Except PackError ShortHeaderPacket :=
  let pl : Payload := ⟨none, [], frames.map .control, none⟩
  let target := min minInitialPacketSize maxPacketSize
  appendShortHeaderPacket hdr pid pl (target - shortHeaderPacketLength hdr pl - sealerOverhead)
    maxPacketSize false

inductive PackerCall where
  | appendPacket (hdr : ShortHeader) (onlyAck : Bool) (maxPacketSize : ℕ) (q : Queues)
  | packPTOProbePacket (hdr : ShortHeader) (maxPacketSize : ℕ) (addPingIfEmpty : Bool) (q : Queues)
  | packMTUProbePacket (hdr : ShortHeader) (size : ℕ)
  | packPathProbePacket (hdr : ShortHeader) (frames : List ControlFrame)
  | appendPacketForPath (hdr : Option ShortHeader) (pid : ℕ) (ack : Option AckFrame)
      (datagrams : List Bytes) (maxSize : ℕ)
  | packPathFramesPacket (hdr : ShortHeader) (pid : ℕ) (frames : List ControlFrame)
      (maxPacketSize : ℕ)

def PackerCall.packet : PackerCall → Except PackError ShortHeaderPacket
  | .appendPacket hdr onlyAck maxPacketSize q => Qng.appendPacket hdr onlyAck maxPacketSize q
  | .packPTOProbePacket hdr maxPacketSize addPingIfEmpty q =>
    packPTOProbePacket1RTT hdr maxPacketSize addPingIfEmpty q
  | .packMTUProbePacket hdr size => Qng.packMTUProbePacket hdr size
  | .packPathProbePacket hdr frames => Qng.packPathProbePacket hdr frames
  | .appendPacketForPath hdr pid ack datagrams maxSize =>
    (Qng.appendPacketForPath hdr pid ack datagrams maxSize).map Prod.fst
  | .packPathFramesPacket hdr pid frames maxPacketSize =>
    Qng.packPathFramesPacket hdr pid frames maxPacketSize

def PackerCall.OnlyPathAck : PackerCall → Prop
  | .appendPacketForPath (some hdr) pid ack datagrams maxSize =>
    let r := maybeGetAppDataPacketForPath pid ack datagrams (maxSize - hdr.len - sealerOverhead)
    r.1.frames ≠ [] ∧ r.2 = 0
  | _ => False

/-! ## Which packets elicit an acknowledgement -/

variable {hdr : ShortHeader} {pid : ℕ} {frames : List ControlFrame} {f : Frame}

lemma appendShortHeaderPacket_eq_ok
    (h : appendShortHeaderPacket hdr pid pl padding maxPacketSize isMTUProbePacket = .ok p) :
    p.frames = pl.frames ∧ p.streamFrame = pl.streamFrame ∧ p.streamFrames = pl.streamFrames ∧
      0 < p.length ∧ p.isPathProbePacket = false ∧ p.pathID = pid := by
  unfold appendShortHeaderPacket at h
  dsimp only at h
  split at h
  · cases h
  · obtain rfl := Except.ok.inj h
    refine ⟨rfl, rfl, rfl, ?_, rfl, rfl⟩
    exact Nat.lt_of_lt_of_le (by decide) (Nat.le_add_left sealerOverhead _)

def AllEliciting (frames : List Frame) : Prop := ∀ f ∈ frames, f.isAckEliciting = true

@[simp] lemma allEliciting_append : AllEliciting (l ++ l') ↔ AllEliciting l ∧ AllEliciting l' :=
  forall_mem_append

@[simp] lemma allEliciting_control (frames : List ControlFrame) : AllEliciting (frames.map .control) :=
  forall_mem_map.mpr fun _ _ => rfl

@[simp] lemma allEliciting_ping : AllEliciting [.control .ping] := allEliciting_control [.ping]

@[simp] lemma allEliciting_fittingDatagram (maxPayloadSize ackLen : ℕ) (q : Queues) :
    AllEliciting (fittingDatagram maxPayloadSize ackLen q) := by
  intro f hf
  obtain ⟨data, -, rfl⟩ := mem_map.mp (mem_of_mem_filter hf)
  rfl

/-- A packet whose frames all elicit an acknowledgement.  Only path 0 has path probes. -/
structure ShortHeaderPacket.Eliciting (p : ShortHeaderPacket) : Prop where
  length_pos : 0 < p.length
  probe : p.isPathProbePacket = true → p.pathID = 0
  frames : AllEliciting p.frames

lemma appendShortHeaderPacket_eliciting
    (h : appendShortHeaderPacket hdr pid pl padding maxPacketSize isMTUProbePacket = .ok p)
    (hframes : AllEliciting pl.frames) : p.Eliciting := by
  obtain ⟨heq, -, -, hpos, hprobe, -⟩ := appendShortHeaderPacket_eq_ok h
  refine ⟨hpos, fun htrue => ?_, heq ▸ hframes⟩
  cases hprobe.symm.trans htrue

lemma composeFrames_allEliciting (maxPayloadSize : ℕ) (ack : Option AckFrame) (q : Queues) :
    AllEliciting (composeFrames maxPayloadSize ack q).frames := by
  unfold composeFrames
  split
  · simp
  · split
    · simp
    · simp

lemma composeNextPacket_allEliciting (maxPayloadSize : ℕ) (onlyAck ackAllowed : Bool) (q : Queues) :
    AllEliciting (composeNextPacket maxPayloadSize onlyAck ackAllowed q).frames := by
  unfold composeNextPacket
  split
  · exact allEliciting_control _
  · exact composeFrames_allEliciting _ _ _

lemma maybeGetAppDataPacket_allEliciting (maxPayloadSize : ℕ) (onlyAck ackAllowed : Bool)
    (q : Queues) : AllEliciting (maybeGetAppDataPacket maxPayloadSize onlyAck ackAllowed q).frames := by
  have hcompose := composeNextPacket_allEliciting maxPayloadSize onlyAck ackAllowed q
  unfold maybeGetAppDataPacket
  dsimp only
  split
  · split
    · exact fun _ hf => absurd hf not_mem_nil
    · split
      · exact allEliciting_append.mpr ⟨hcompose, allEliciting_ping⟩
      · exact hcompose
  · exact hcompose

lemma AllEliciting.nil_or {frames : List Frame} (h : AllEliciting frames) :
    frames = [] ∨ hasAckElicitingFrames frames = true := by
  cases frames with
  | nil => exact .inl rfl
  | cons f l => exact .inr (any_eq_true.mpr ⟨f, mem_cons_self, h f mem_cons_self⟩)

namespace PackerCall

variable {p : ShortHeaderPacket} {call : PackerCall}

lemma packet_appendPacketForPath {hdr : Option ShortHeader} {ack : Option AckFrame} {maxSize : ℕ}
    (hp : (appendPacketForPath hdr pid ack datagrams maxSize).packet = .ok p) :
    ∃ hdr', hdr = some hdr' ∧ p.frames = (maybeGetAppDataPacketForPath pid ack datagrams
        (maxSize - hdr'.len - sealerOverhead)).1.frames ∧
      p.streamFrame = none ∧ p.streamFrames = [] ∧ 0 < p.length ∧ p.isPathProbePacket = false := by
  cases hdr with
  | none => cases hp
  | some hdr =>
    dsimp only [packet, Qng.appendPacketForPath] at hp
    split at hp
    · cases hp
    · cases happend : appendShortHeaderPacket hdr pid (maybeGetAppDataPacketForPath pid ack datagrams
          (maxSize - hdr.len - sealerOverhead)).1 0 maxSize false with
      | error e =>
        rw [happend] at hp
        cases hp
      | ok packet =>
        rw [happend] at hp
        obtain rfl := Except.ok.inj hp
        obtain ⟨hframes, hstream, hstreams, hpos, hprobe, -⟩ :=
          appendShortHeaderPacket_eq_ok happend
        exact ⟨hdr, rfl, hframes, hstream, hstreams, hpos, hprobe⟩

variable (hp : call.packet = .ok p)
include hp

lemma packet_cases : p.Eliciting ∨ ∃ hdr pid ack datagrams maxSize,
      call = .appendPacketForPath hdr pid ack datagrams maxSize := by
  cases call with
  | appendPacket hdr onlyAck maxPacketSize q =>
    dsimp only [packet, Qng.appendPacket] at hp
    split at hp
    · cases hp
    · exact .inl (appendShortHeaderPacket_eliciting hp (maybeGetAppDataPacket_allEliciting _ _ _ _))
  | packPTOProbePacket hdr maxPacketSize addPingIfEmpty q =>
    dsimp only [packet, packPTOProbePacket1RTT] at hp
    split at hp
    · exact .inl (appendShortHeaderPacket_eliciting hp (maybeGetAppDataPacket_allEliciting _ _ _ _))
    · split at hp
      · cases hp
      · refine .inl (appendShortHeaderPacket_eliciting hp ?_)
        exact allEliciting_append.mpr ⟨maybeGetAppDataPacket_allEliciting _ _ _ _, allEliciting_ping⟩
  | packMTUProbePacket hdr size =>
    dsimp only [packet, Qng.packMTUProbePacket] at hp
    exact .inl (appendShortHeaderPacket_eliciting hp allEliciting_ping)
  | packPathProbePacket hdr frames =>
    obtain ⟨packet, hpacket, hp⟩ := except_bind_eq_ok.mp hp
    obtain rfl := Except.ok.inj hp
    obtain ⟨-, -, -, -, -, hpid⟩ := appendShortHeaderPacket_eq_ok hpacket
    have helicit := appendShortHeaderPacket_eliciting hpacket (allEliciting_control frames)
    exact .inl { helicit with probe := fun _ => hpid }
  | appendPacketForPath hdr pid ack datagrams maxSize => exact .inr ⟨_, _, _, _, _, rfl⟩
  | packPathFramesPacket hdr pid frames maxPacketSize =>
    exact .inl (appendShortHeaderPacket_eliciting hp (allEliciting_control frames))

lemma packet_length_pos : 0 < p.length := by
  rcases packet_cases hp with helicit | ⟨hdr, pid, ack, datagrams, maxSize, rfl⟩
  · exact helicit.length_pos
  · obtain ⟨hdr, -, -, -, -, hpos, -⟩ := packet_appendPacketForPath hp
    exact hpos

lemma packet_pathID_of_probe (hprobe : p.isPathProbePacket = true) : p.pathID = 0 := by
  rcases packet_cases hp with helicit | ⟨hdr, pid, ack, datagrams, maxSize, rfl⟩
  · exact helicit.probe hprobe
  · obtain ⟨hdr, -, -, -, -, -, hnot⟩ := packet_appendPacketForPath hp
    cases hprobe.symm.trans hnot

lemma packet_hasAckElicitingFrames (hcall : ¬ call.OnlyPathAck) :
    p.frames = [] ∨ hasAckElicitingFrames p.frames = true := by
  rcases packet_cases hp with helicit | ⟨hdr, pid, ack, datagrams, maxSize, rfl⟩
  · exact helicit.frames.nil_or
  · obtain ⟨hdr, rfl, hframes, -⟩ := packet_appendPacketForPath hp
    by_cases hnil : p.frames = []
    · exact .inl hnil
    · rw [hframes] at hnil
      have hpacked : 0 < (fittingDatagrams _ datagrams).length :=
        Nat.pos_of_ne_zero fun hzero => hcall ⟨hnil, hzero⟩
      obtain ⟨data, hdata⟩ := exists_mem_of_length_pos hpacked
      have hmem : Frame.datagram data ∈ p.frames := by
        rw [hframes]
        exact mem_append_right _ (mem_map_of_mem hdata)
      exact .inr (any_eq_true.mpr ⟨_, hmem, rfl⟩)

lemma packet_onlyPathAck (hcall : call.OnlyPathAck) :
    p.frames ≠ [] ∧ hasAckElicitingFrames p.frames = false ∧ p.streamFrame = none ∧
      p.streamFrames = [] ∧ p.isPathProbePacket = false := by
  cases call with
  | appendPacketForPath hdr pid ack datagrams maxSize =>
    obtain ⟨hdr, rfl, hframes, hstream, hstreams, -, hprobe⟩ := packet_appendPacketForPath hp
    obtain ⟨hne, hzero⟩ := hcall
    refine ⟨hframes ▸ hne, ?_, hstream, hstreams, hprobe⟩
    refine any_eq_false.mpr fun f hf => ?_
    rw [hframes] at hf
    rcases mem_append.mp hf with hf | hf
    · obtain ⟨a, -, rfl⟩ := mem_map.mp (mem_of_mem_filter hf)
      exact Bool.false_ne_true
    · rw [length_eq_zero_iff.mp hzero] at hf
      cases hf
  | _ => cases hcall

end PackerCall

/-! ## The sizes of packets on other paths -/

lemma framesLength_append (l l' : List Frame) :
    framesLength (l ++ l') = framesLength l + framesLength l' := by
  induction l with
  | nil => exact (Nat.zero_add _).symm
  | cons f l ih =>
    rw [cons_append, framesLength, framesLength]
    omega

lemma fittingDatagrams_length_le (n : ℕ) (datagrams : List Bytes) :
    framesLength ((fittingDatagrams n datagrams).map .datagram) ≤ n := by
  induction datagrams generalizing n with
  | nil => exact Nat.zero_le n
  | cons data rest ih =>
    unfold fittingDatagrams
    dsimp only
    split
    · exact Nat.zero_le n
    · have hrest := ih (n - (Frame.datagram data).length)
      rw [map_cons, framesLength]
      omega

lemma maybeGetAppDataPacketForPath_length_le (pid : ℕ) (ack : Option AckFrame)
    (datagrams : List Bytes) (maxPayloadSize : ℕ) :
    (maybeGetAppDataPacketForPath pid ack datagrams maxPayloadSize).1.length ≤ maxPayloadSize := by
  have hack : framesLength ((ack.toList.map (Frame.pathAck pid)).filter fun f =>
      f.length ≤ maxPayloadSize) ≤ maxPayloadSize := by
    cases ack with
    | none => exact Nat.zero_le _
    | some ack =>
      by_cases hle : (Frame.pathAck pid ack).length ≤ maxPayloadSize
      · simp [framesLength, hle]
      · simp [framesLength, hle]
  have hdata := fittingDatagrams_length_le (maxPayloadSize - framesLength
    ((ack.toList.map (Frame.pathAck pid)).filter fun f => f.length ≤ maxPayloadSize)) datagrams
  unfold maybeGetAppDataPacketForPath Payload.length
  rw [framesLength_append]
  simp only [Option.elim_none, streamFramesLength]
  omega

lemma appendPacketForPath_error {ack : Option AckFrame}
    (hpn : 1 ≤ hdr.pnLen) (hsize : hdr.len + 4 + sealerOverhead ≤ maxSize)
    (h : appendPacketForPath (some hdr) pid ack datagrams maxSize = .error e) : e = .nothingToPack := by
  have hle := maybeGetAppDataPacketForPath_length_le pid ack datagrams
    (maxSize - hdr.len - sealerOverhead)
  dsimp only [appendPacketForPath] at h
  split at h
  · exact (Except.error.inj h).symm
  · have hfits : ¬ ((!false) = true ∧ maxSize < shortHeaderPacketLength hdr
        (maybeGetAppDataPacketForPath pid ack datagrams (maxSize - hdr.len - sealerOverhead)).1 + 0 +
        sealerOverhead) := by
      unfold shortHeaderPacketLength
      omega
    unfold appendShortHeaderPacket at h
    rw [if_neg (by simpa using hfits)] at h
    cases h

lemma framesLength_control (h : ∀ f ∈ frames, f.length = 9) :
    framesLength (frames.map .control) = 9 * frames.length := by
  induction frames with
  | nil => rfl
  | cons f frames ih =>
    have hf : (Frame.control f).length = 9 := h f mem_cons_self
    rw [map_cons, framesLength, ih fun f hf => h f (mem_cons_of_mem _ hf), length_cons]
    omega

lemma packPathFramesPacket_cases (pid : ℕ) (maxPacketSize : ℕ) (hpn : 1 ≤ hdr.pnLen)
    (hne : frames ≠ []) (h : ∀ f ∈ frames, f.length = 9) :
    (hdr.len + 9 * frames.length + sealerOverhead ≤ maxPacketSize ∧
      ∃ p, packPathFramesPacket hdr pid frames maxPacketSize = .ok p ∧ p.frames = frames.map .control) ∨
      (¬ hdr.len + 9 * frames.length + sealerOverhead ≤ maxPacketSize ∧ ∃ size allowed,
          packPathFramesPacket hdr pid frames maxPacketSize = .error (.tooLarge size allowed)) := by
  have hlength : shortHeaderPacketLength hdr ⟨none, [], frames.map .control, none⟩ =
      hdr.len + 9 * frames.length := by
    have hpos := length_pos_of_ne_nil hne
    have hframes := framesLength_control h
    unfold shortHeaderPacketLength Payload.length
    simp only [Option.elim_none, streamFramesLength]
    omega
  simp only [packPathFramesPacket, appendShortHeaderPacket, Bool.not_false, Bool.true_and,
    decide_eq_true_eq]
  split
  case isTrue hlarge => exact .inr ⟨by omega, _, _, rfl⟩
  case isFalse hfits => exact .inl ⟨by omega, _, rfl, rfl⟩

end Iroh.Qng
