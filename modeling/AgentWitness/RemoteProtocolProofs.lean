import AgentWitness.BrokerTaskProofs

/-! # The remote protocol's messages

    The named-field messages of `remote/protocol.rs` and `remote/protocol.ts`.
    Encoding and decoding preserve values, so both sides share one type for each
    direction. -/

namespace RemoteProtocol

open Packet BrokerTask

/-- Public key metadata advertised by the paired client. -/
structure AgentIdentity where
  key_blob : Bytes
  comment : String
  deriving DecidableEq

/-- A Web Push endpoint registered by the paired client. -/
structure PushSubscription where
  endpoint : String
  expiration_time : Option UInt64
  p256dh : String
  auth : String
  deriving DecidableEq

/-- One dispatched request as it travels to the remote client. -/
structure RemoteRequest where
  request_id : RequestId
  attempt : UInt32
  requested_at : UInt64
  deadline : UInt64
  packet : Bytes
  context : Option RequestContext
  deriving DecidableEq

/-- Messages accepted from a remote client. -/
inductive ClientMessage where
  | pairRequest (label : String)
  | authenticate (client_id : Uuid) (credential : Bytes)
  | agentReady
  | agentLocked
  | agentResponse (request_id : RequestId) (attempt : UInt32) (packet : Bytes)
  | setPushSubscription (subscription : PushSubscription)
  | setIdentities (identities : List AgentIdentity)
  | pong
  deriving DecidableEq

/-- Messages sent to a remote client. -/
inductive ServerMessage where
  | paired (server_id client_id : Uuid) (credential : Bytes) (session_id : SessionId)
      (vapid_public_key : Bytes)
  | authenticated (server_id : Uuid) (session_id : SessionId) (vapid_public_key : Bytes)
  | rejected
  | agentRequest (request : RemoteRequest)
  | cancelRequest (request_id : RequestId) (attempt : UInt32)
  | ping
  deriving DecidableEq

/-- `From<RemoteCommand> for ServerMessage`. -/
def ofRemoteCommand : RemoteCommand → ServerMessage
  | .request request_id attempt requested_at deadline packet context =>
      .agentRequest ⟨request_id, attempt, requested_at, deadline, packet, context⟩
  | .cancel request_id attempt => .cancelRequest request_id attempt

end RemoteProtocol
