import Iroh.Common.Bytes
import Iroh.Common.GoMap

/-!
# Gossip messages

Reference: `internal/gossipproto/types.go`.

The messages two peers of a topic exchange.  Kinds are numbers in the source, and a switch on a kind
without a case does nothing; `unknown` stands for those.
-/

namespace Iroh.GossipProto

abbrev PeerID := Bytes32

abbrev TopicID := Bytes32

abbrev MessageID := Bytes32

/-- `types.go::PeerData`; a `*PeerData` is an `Option`. -/
abbrev PeerData := Bytes

structure PeerInfo where
  id : PeerID
  data : Option PeerData
deriving DecidableEq

/-- A `time.Duration` in nanoseconds. -/
abbrev Duration := ℤ

/-- A `time.Time` in nanoseconds. -/
abbrev Time := ℤ

/-! ## Membership -/

structure ForwardJoin where
  peer : PeerInfo
  ttl : UInt16
deriving DecidableEq

structure Shuffle where
  origin : PeerID
  nodes : List PeerInfo
  ttl : UInt16
deriving DecidableEq

inductive Priority where
  | high
  | low
  | unknown (n : ℕ)
deriving DecidableEq

structure Neighbor where
  priority : Priority
  data : Option PeerData
deriving DecidableEq

structure Disconnect where
  alive : Bool
  respond : Bool
deriving DecidableEq

inductive HyparviewMessage where
  | join (data : Option PeerData)
  | forwardJoin (message : ForwardJoin)
  | shuffle (message : Shuffle)
  | shuffleReply (nodes : List PeerInfo)
  | neighbor (message : Neighbor)
  | disconnect (message : Disconnect)
  | unknown (kind : ℕ)
deriving DecidableEq

/-! ## Broadcast -/

inductive DeliveryScope where
  | swarm (round : UInt16)
  | neighbors
  | unknown (kind : ℕ)
deriving DecidableEq

structure Gossip where
  id : MessageID
  content : Bytes
  scope : DeliveryScope
deriving DecidableEq

structure IHave where
  id : MessageID
  round : UInt16
deriving DecidableEq

structure Graft where
  id : Option MessageID
  round : UInt16
deriving DecidableEq

inductive PlumtreeMessage where
  | gossip (message : Gossip)
  | prune
  | graft (message : Graft)
  | iHave (ihaves : List IHave)
  | unknown (kind : ℕ)
deriving DecidableEq

inductive TopicMessage where
  | swarm (message : HyparviewMessage)
  | gossip (message : PlumtreeMessage)
  | unknown (kind : ℕ)
deriving DecidableEq

end Iroh.GossipProto
