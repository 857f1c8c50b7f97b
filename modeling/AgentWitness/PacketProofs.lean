import AgentWitness.KeyedMapProofs

/-! # Requests and identifiers shared by the server's components

    The transport-neutral values of `packet.rs` and `broker/mod.rs`: request
    and session identifiers, the caller's explanation of a request, and the
    ways a request can fail. -/

namespace Packet

/-- Opaque bytes, as `bytes::Bytes` carries them. -/
abbrev Bytes := List UInt8

/-- A 128-bit universally unique identifier. -/
structure Uuid where
  bits : BitVec 128
  deriving DecidableEq, Repr

/-- Stable identity assigned to one local request. -/
abbrev RequestId := Uuid

/-- Stable identity assigned to one remote WebSocket session. -/
abbrev SessionId := Uuid

/-- A monotonic clock reading; the broker only compares them. -/
abbrev Instant := Nat

/-- Caller-provided explanation shared by requests on one SSH-agent
    connection. -/
structure RequestContext where
  group_id : Uuid
  reason : String
  command : List String
  deriving DecidableEq, Repr

/-- Failure to admit or complete an SSH-agent packet request. -/
inductive RequestError where
  | unavailable
  | queueFull
  | timedOut
  | cancelled
  deriving DecidableEq, Repr

/-- Display context for a coalesced request to wake the remote browser. -/
structure WakeRequest where
  reasons : List String
  deriving DecidableEq, Repr

end Packet
