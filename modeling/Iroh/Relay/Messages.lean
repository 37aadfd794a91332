import Iroh.Common.Bytes
import Mathlib.Algebra.Group.Nat.Defs

/-!
# Messages of the relay protocol

Reference: `internal/relayproto` (`messages.go`, `datagrams.go`, `frame.go`, `varint.go`, `keycache.go`).

A frame is a frame type, as a QUIC varint, and a payload.  The parsers take an endpoint id only if it is a
point of the curve; `valid` says which strings of 32 bytes are.
-/

namespace Iroh.Relay

def maxPacketSize : ℕ := 64 * 1024

inductive ProtocolVersion where
  | v1
  | v2
deriving DecidableEq

/-- `FrameType`, in the order of the numbers. -/
inductive FrameType where
  | serverChallenge
  | clientAuth
  | serverConfirmsAuth
  | serverDeniesAuth
  | clientToRelayDatagram
  | clientToRelayDatagramBat
  | relayToClientDatagram
  | relayToClientDatagramBat
  | endpointGone
  | ping
  | pong
  | health
  | restarting
  | status
deriving DecidableEq

inductive FrameError where
  | invalidFrame
  | frameTooLarge (size : ℕ)
  | unknownFrameType (type : ℕ)
  | frameTypeUnexpectedEnd
  | frameNotAllowedInVersion
  | invalidKey
deriving DecidableEq

/-- `readVarint`: the first two bits are the exponent of the length. -/
def readVarint : Bytes → Option (ℕ × Bytes)
  | [] => none
  | b :: rest =>
    let n := 2 ^ (b.toNat / 64) - 1
    if rest.length < n then none
    else some ((rest.take n).foldl (fun v x => v * 256 + x.toNat) (b.toNat % 64), rest.drop n)

def readFrameType (b : Bytes) : Except FrameError (FrameType × Bytes) :=
  match readVarint b with
  | none => .error .frameTypeUnexpectedEnd
  | some (v, rest) => if v ≤ 13 then .ok (.ofNat v, rest) else .error (.unknownFrameType v)

/-- `writeFrameType`: all frame types are varints of one byte. -/
def writeFrameType (f : FrameType) : Bytes := [.ofNat f.ctorIdx]

def toArray? (n : ℕ) (b : Bytes) : Option (Vector UInt8 n) :=
  if h : b.length = n then some ⟨b.toArray, h⟩ else none

/-- `Datagrams`; `ecn` has the two bits that a parser leaves of it. -/
structure Datagrams where
  ecn : Fin 4
  segmentSize : UInt16
  contents : Bytes
deriving DecidableEq

def Datagrams.isBatch (d : Datagrams) : Bool := d.segmentSize ≠ 0

def Datagrams.appendTo (d : Datagrams) : Bytes :=
  .ofNat d.ecn ::
    (if d.segmentSize ≠ 0 then [.ofNat (d.segmentSize.toNat / 256), .ofNat d.segmentSize.toNat] else []) ++
    d.contents

def datagramsFromBytes : Bool → Bytes → Except FrameError Datagrams
  | true, ecn :: hi :: lo :: rest => .ok ⟨.ofNat 4 ecn.toNat, .ofNat (hi.toNat * 256 + lo.toNat), rest⟩
  | false, ecn :: rest => .ok ⟨.ofNat 4 ecn.toNat, 0, rest⟩
  | _, _ => .error .invalidFrame

/-- An `EndpointID` that was validated. -/
abbrev EndpointID (valid : Bytes32 → Bool) := { b : Bytes32 // valid b = true }

/-- `RelayToClientMsg`; `batch` says that the type of a datagram is `FrameRelayToClientDatagramBat`.  The
durations are the four bytes of their milliseconds. -/
inductive RelayToClientMsg (valid : Bytes32 → Bool) where
  | datagram (batch : Bool) (remote : EndpointID valid) (datagrams : Datagrams)
  | endpointGone (id : EndpointID valid)
  | ping (payload : Vector UInt8 8)
  | pong (payload : Vector UInt8 8)
  | health (problem : Bytes)
  | restarting (reconnectIn tryFor : Vector UInt8 4)
  | status (status : UInt8)
deriving DecidableEq

inductive ClientToRelayMsg (valid : Bytes32 → Bool) where
  | datagram (dst : EndpointID valid) (datagrams : Datagrams)
  | ping (payload : Vector UInt8 8)
  | pong (payload : Vector UInt8 8)
deriving DecidableEq

def statusSameEndpointIDConnected : UInt8 := 1

variable {valid : Bytes32 → Bool}

def endpointID (b : Bytes) : Except FrameError (EndpointID valid) :=
  match toArray? 32 b with
  | some arr => if h : valid arr = true then .ok ⟨arr, h⟩ else .error .invalidKey
  | none => .error .invalidKey

def RelayToClientMsg.appendTo : RelayToClientMsg valid → Bytes
  | .datagram _ remote d => writeFrameType (if d.isBatch then .relayToClientDatagramBat else
      .relayToClientDatagram) ++ (remote.1.toList ++ d.appendTo)
  | .endpointGone id => writeFrameType .endpointGone ++ id.1.toList
  | .ping p => writeFrameType .ping ++ p.toList
  | .pong p => writeFrameType .pong ++ p.toList
  | .health problem => writeFrameType .health ++ problem
  | .restarting reconnectIn tryFor => writeFrameType .restarting ++ (reconnectIn.toList ++ tryFor.toList)
  | .status s => writeFrameType .status ++ [s]

def idAndDatagrams (isBatch : Bool) (rest : Bytes) : Except FrameError (EndpointID valid × Datagrams) :=
  if rest.length < 32 then .error .invalidFrame
  else do return (← endpointID (rest.take 32), ← datagramsFromBytes isBatch (rest.drop 32))

def fixed (n : ℕ) (rest : Bytes) : Except FrameError (Vector UInt8 n) :=
  (toArray? n rest).elim (.error .invalidFrame) .ok

def parseRelayToClientMsg (content : Bytes) (version : ProtocolVersion) :
    Except FrameError (RelayToClientMsg valid) := do
  let (ft, rest) ← readFrameType content
  if rest.length > maxPacketSize then throw (.frameTooLarge rest.length) else
  match ft with
  | .relayToClientDatagram =>
    let (id, d) ← idAndDatagrams false rest
    return .datagram false id d
  | .relayToClientDatagramBat =>
    let (id, d) ← idAndDatagrams true rest
    return .datagram true id d
  | .endpointGone => if rest.length ≠ 32 then throw .invalidFrame else return .endpointGone (← endpointID rest)
  | .ping => return .ping (← fixed 8 rest)
  | .pong => return .pong (← fixed 8 rest)
  | .health => if version ≠ .v1 then throw .frameNotAllowedInVersion else return .health rest
  | .restarting =>
    let p ← fixed 8 rest
    return .restarting (p.take 4) (p.drop 4)
  | .status =>
    if version = .v1 then throw .frameNotAllowedInVersion else
    match rest with
    | s :: _ => return .status s
    | [] => throw .invalidFrame
  | ft => throw (.unknownFrameType ft.ctorIdx)

def parseClientToRelayMsg (content : Bytes) : Except FrameError (ClientToRelayMsg valid) := do
  let (ft, rest) ← readFrameType content
  if rest.length > maxPacketSize then throw (.frameTooLarge rest.length) else
  match ft with
  | .clientToRelayDatagram =>
    let (id, d) ← idAndDatagrams false rest
    return .datagram id d
  | .clientToRelayDatagramBat =>
    let (id, d) ← idAndDatagrams true rest
    return .datagram id d
  | .ping => return .ping (← fixed 8 rest)
  | .pong => return .pong (← fixed 8 rest)
  | ft => throw (.unknownFrameType ft.ctorIdx)

end Iroh.Relay
