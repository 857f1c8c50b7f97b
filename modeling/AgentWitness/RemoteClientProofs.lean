import AgentWitness.RemoteProtocolProofs
import Mathlib.Logic.Function.Basic

/-! # The client: one worker's remote session

    `remote/session.ts`.  The methods run to their first await in one turn of
    the event loop; what an await leaves behind (a load, a save, a deletion, a
    running handler, the chain of received frames) is part of the state, and its
    continuation is an action of its own.  So is the `catch` of a promise chain,
    which runs in a later microtask than the throw it catches.

    A method that throws keeps the changes made before the throw.  Callbacks
    and calls to the outside are outputs, in order. -/

namespace RemoteClient

open Packet KeyedMap BrokerTask RemoteProtocol

/-- A WebSocket of a client; the server's task for it has the same name. -/
abbrev SocketId := Nat

/-- What the session takes from the platform and its options. -/
structure Environment where
  /-- `new URL(endpoint).href`, if the endpoint parses. -/
  href : String → Option String
  /-- What `encodeClientMessage` throws for a message, if it does. -/
  encodeError : ClientMessage → Option String
  canProcessBeforeReady : RemoteRequest → Bool

/-- Bound on queued requests. -/
def MAX_PENDING_REQUESTS : Nat := 32

/-- Durable credentials and server identity established by pairing an
    endpoint. -/
structure PairingRecord where
  endpoint : String
  serverId : Uuid
  clientId : Uuid
  credential : Bytes
  label : String
  pairedAt : Nat
  deriving DecidableEq

inductive RemoteRequestOutcome where
  | signed
  | expired
  | canceled
  deriving DecidableEq

inductive Status where
  | connecting
  | connected
  | reconnecting
  | rejected
  | error
  deriving DecidableEq

/-- Display-safe connection state published to page code. -/
structure ConnectionSnapshot where
  status : Status
  serverId : Option Uuid
  sessionId : Option SessionId
  vapidPublicKey : Option Bytes
  pendingRequests : Nat
  error : Option String
  deriving DecidableEq

/-- What can be thrown, by the session or by what it calls. -/
inductive Cause where
  | invalidEndpoint
  | notOpen
  | notConnected
  | notBinary
  | malformed (message : String)
  | unencodable (message : String)
  | lateHandshake
  | alreadyPaired
  | serverMismatch
  | unexpectedMessage
  | duplicateRequest
  | bufferFull
  | handler (message : String)
  | store (message : String)
  deriving DecidableEq

/-- `cause.message`. -/
def Cause.message : Cause → String
  | .invalidEndpoint => "Invalid URL"
  | .notOpen => "WebSocket is not open"
  | .notConnected => "remote session is not connected"
  | .notBinary => "expected a binary WebSocket message"
  | .malformed message => message
  | .unencodable message => message
  | .lateHandshake => "received a handshake message after authentication"
  | .alreadyPaired => "server paired an already-known client"
  | .serverMismatch => "server identity does not match the stored pairing"
  | .unexpectedMessage => "expected a handshake response"
  | .duplicateRequest => "received a duplicate agent request"
  | .bufferFull => "remote request buffer is full"
  | .handler message => message
  | .store message => message

/-- `requestKey`. -/
abbrev Key := RequestId × UInt32

def requestKey (request : RemoteRequest) : Key := (request.request_id, request.attempt)

/-- A decoded agent request and whether its response is being produced.  The
    token is the object's identity. -/
structure PendingEntry where
  request : RemoteRequest
  processing : Bool
  token : Nat
  deriving DecidableEq

/-- `WebSocket.readyState`. -/
inductive ReadyState where
  | connecting
  | open
  | closing
  | closed
  deriving DecidableEq

/-- A created socket with what its listeners have captured. -/
structure WebSocket where
  readyState : ReadyState
  pairing : Option PairingRecord
  label : String
  deriving DecidableEq

/-- The data of a message event. -/
inductive Frame where
  | text
  | malformed (error : String)
  | message (message : ServerMessage)
  deriving DecidableEq

/-- A link of the promise chain `#receiving`. -/
structure Received where
  socket : SocketId
  frame : Frame
  label : String
  deriving DecidableEq

/-- What the oldest link of the chain waits for. -/
inductive Chain where
  | idle
  | saving (socket : SocketId) (pairing : PairingRecord) (sessionId : SessionId)
      (vapidPublicKey : Bytes)
  | failing (socket : SocketId) (cause : Cause)
  deriving DecidableEq

/-- A started `handleRequest`, with what its continuations have captured; once
    something was thrown, its `catch` is due. -/
structure Handler where
  socket : SocketId
  pending : PendingEntry
  thrown : Option Cause
  deriving DecidableEq

/-- An `#open` that awaits `loadPairing`. -/
structure Opening where
  endpoint : String
  label : String
  deriving DecidableEq

/-- One browser worker's connection to one agent-witness server. -/
structure RemoteSession where
  socket : Option SocketId
  endpoint : Option String
  label : Option String
  pairing : Option PairingRecord
  ready : Bool
  identities : List AgentIdentity
  active : Bool
  retryTimer : Bool
  /-- Invalidates async connection work when a newer lifecycle decision wins. -/
  generation : Nat
  /-- Inbound frames not yet begun. -/
  receiving : List Received
  chain : Chain
  /-- Requests awaiting or undergoing handling. -/
  pending : Map Key PendingEntry
  snapshot : ConnectionSnapshot
  sockets : SocketId → Option WebSocket
  /-- Awaiting opens, by their generation. -/
  opens : Map Nat Opening
  /-- Endpoints whose deletion is awaited. -/
  forgets : List String
  /-- Running handlers, by the token of their entry. -/
  handlers : Map Nat Handler
  /-- How many entries have been made. -/
  allocated : Nat

/-- What the session does to the outside. -/
inductive ClientOutput where
  | sent (socket : SocketId) (message : ClientMessage)
  | created (socket : SocketId)
  | closed (socket : SocketId)
  /-- `onDisconnect`. -/
  | disconnected
  /-- `onRequestSettled`. -/
  | settled (request : RemoteRequest) (outcome : RemoteRequestOutcome)
  /-- `handleRequest` is called. -/
  | handling (socket : SocketId) (request : RemoteRequest)
  /-- What it has resolved to. -/
  | resolved (socket : SocketId) (request : RemoteRequest) (packet : Bytes)
  | loading (endpoint : String)
  | saving (pairing : PairingRecord)
  | deleting (endpoint : String)
  /-- A method throws to its caller. -/
  | threw (cause : Cause)
  deriving DecidableEq

/-- What a method did: the session after it, what it did to the outside and what
    it threw. -/
structure Outcome where
  session : RemoteSession
  outputs : List ClientOutput
  thrown : Option Cause

def RemoteSession.done (s : RemoteSession) : Outcome := ⟨s, [], none⟩

def RemoteSession.throw (s : RemoteSession) (cause : Cause) : Outcome := ⟨s, [], some cause⟩

/-- Go on unless something was thrown. -/
def Outcome.andThen (r : Outcome) (next : RemoteSession → Outcome) : Outcome :=
  match r.thrown with
  | some _ => r
  | none => { next r.session with outputs := r.outputs ++ (next r.session).outputs }

/-! ## Snapshot, timer and buffer -/

/-- Merge an update into the published snapshot. -/
def RemoteSession.setSnapshot (s : RemoteSession)
    (update : ConnectionSnapshot → ConnectionSnapshot) : RemoteSession :=
  { s with snapshot := update s.snapshot }

/-- The update of a session that is not connected. -/
def detached (status : Status) (error : Option String) (snapshot : ConnectionSnapshot) :
    ConnectionSnapshot :=
  { snapshot with
    status, serverId := none, sessionId := none, vapidPublicKey := none, error }

/-- Publish the current number of buffered or processing requests. -/
def RemoteSession.pendingChanged (s : RemoteSession) : RemoteSession :=
  s.setSnapshot (fun snapshot => { snapshot with pendingRequests := s.pending.len })

/-- Discard all request state. -/
def RemoteSession.clearPending (s : RemoteSession) : RemoteSession :=
  if s.pending.len = 0 then s else { s with pending := .empty }.pendingChanged

def RemoteSession.stopRetry (s : RemoteSession) : RemoteSession := { s with retryTimer := false }

/-- The endpoint, unless it is null or empty. -/
def RemoteSession.target (s : RemoteSession) : Option String :=
  s.endpoint.filter (fun endpoint => endpoint ≠ "")

/-- Keep one fixed-delay retry pending for an active session. -/
def RemoteSession.scheduleRetry (s : RemoteSession) : RemoteSession :=
  if ¬ s.active ∨ s.retryTimer ∨ s.target = none then s else { s with retryTimer := true }

/-! ## Losing a socket -/

/-- `socket.close()`. -/
def WebSocket.close (w : WebSocket) : WebSocket :=
  match w.readyState with
  | .connecting | .open => { w with readyState := .closing }
  | .closing | .closed => w

def RemoteSession.closeWebSocket (s : RemoteSession) (socket : SocketId) : RemoteSession :=
  { s with sockets := Function.update s.sockets socket ((s.sockets socket).map WebSocket.close) }

/-- `onDisconnect`, for a session that was connected. -/
def RemoteSession.disconnects (s : RemoteSession) : List ClientOutput :=
  if s.snapshot.status = .connected then [.disconnected] else []

/-- Close the active socket and discard connection-scoped state. -/
def RemoteSession.closeSocket (s : RemoteSession) : RemoteSession × List ClientOutput :=
  let s' := { s with
    generation := s.generation + 1, socket := none, pairing := none }.clearPending
  match s.socket with
  | none => (s', s.disconnects)
  | some socket => (s'.closeWebSocket socket, .closed socket :: s.disconnects)

/-- Close the current socket with a terminal status and user-facing error. -/
def RemoteSession.finish (s : RemoteSession) (socket : SocketId) (status : Status)
    (error : String) : RemoteSession × List ClientOutput :=
  if s.socket = some socket then
    ((({ s with socket := none }.stopRetry.clearPending).setSnapshot
      (detached status (some error))).closeWebSocket socket, .closed socket :: s.disconnects)
  else (s, [])

/-- Reconcile a failed transport and keep trying while the page is active. -/
def RemoteSession.connectionLost (s : RemoteSession) (socket : SocketId) :
    RemoteSession × List ClientOutput :=
  if s.socket = some socket then
    ((({ s with socket := none }.clearPending.setSnapshot
      (detached .reconnecting none)).closeWebSocket socket).scheduleRetry,
      .closed socket :: s.disconnects)
  else (s, [])

/-- `socket.readyState === WebSocket.OPEN`. -/
def RemoteSession.isOpen (s : RemoteSession) (socket : SocketId) : Bool :=
  (s.sockets socket).any (fun w => w.readyState = .open)

/-- Convert an unexpected failure into a transport retry or terminal error. -/
def RemoteSession.fail (s : RemoteSession) (socket : SocketId) (cause : Cause) :
    RemoteSession × List ClientOutput :=
  if s.isOpen socket then s.finish socket .error cause.message else s.connectionLost socket

/-! ## Requests -/

/-- Encode and send a message only through the currently open socket. -/
def RemoteSession.send (env : Environment) (s : RemoteSession) (socket : SocketId)
    (message : ClientMessage) : Outcome :=
  if s.socket = some socket ∧ s.isOpen socket then
    match env.encodeError message with
    | some error => s.throw (.unencodable error)
    | none => ⟨s, [.sent socket message], none⟩
  else s.throw .notOpen

/-- Start a request when it is still pending, idle, and either allowed before
    readiness or the agent is ready. -/
def RemoteSession.tryProcess (env : Environment) (s : RemoteSession) (socket : SocketId)
    (key : Key) : Outcome :=
  match s.pending.get? key with
  | none => s.done
  | some pending =>
      if pending.processing ∨ (¬ s.ready ∧ ¬ env.canProcessBeforeReady pending.request) then s.done
      else
        let pending := { pending with processing := true }
        ⟨{ s with
            pending := s.pending.insert key pending
            handlers := s.handlers.insert pending.token ⟨socket, pending, none⟩ },
          [.handling socket pending.request], none⟩

/-- Offer every pending request for processing. -/
def RemoteSession.drain (env : Environment) (s : RemoteSession) (socket : SocketId) : Outcome :=
  s.pending.keys.foldl
    (fun r key => r.andThen (fun s => s.tryProcess env socket key)) s.done

/-- Buffer a unique request and attempt it immediately when the agent is ready. -/
def RemoteSession.enqueue (env : Environment) (s : RemoteSession) (socket : SocketId)
    (request : RemoteRequest) : Outcome :=
  if (s.pending.get? (requestKey request)).isSome then s.throw .duplicateRequest
  else if s.pending.len ≥ MAX_PENDING_REQUESTS then s.throw .bufferFull
  else
    ({ s with
      pending := s.pending.insert (requestKey request) ⟨request, false, s.allocated⟩
      allocated := s.allocated + 1 }.pendingChanged).tryProcess env socket (requestKey request)

/-- Remove a buffered request or suppress its in-flight response. -/
def RemoteSession.cancel (s : RemoteSession) (requestId : RequestId) (attempt : UInt32)
    (now : Nat) : Outcome :=
  match s.pending.get? (requestId, attempt) with
  | none => s.done
  | some pending =>
      ⟨{ s with pending := s.pending.erase (requestId, attempt) }.pendingChanged,
        [.settled pending.request
          (if now ≥ pending.request.deadline.toNat then .expired else .canceled)], none⟩

/-! ## Handshake and routing -/

def RemoteSession.sendIdentities (env : Environment) (s : RemoteSession) (socket : SocketId) :
    Outcome :=
  s.send env socket (.setIdentities s.identities)

/-- The message that announces the agent's availability. -/
def availability (ready : Bool) : ClientMessage := if ready then .agentReady else .agentLocked

/-- Publish an authenticated connection and offer pending work for processing. -/
def RemoteSession.connected (env : Environment) (s : RemoteSession) (socket : SocketId)
    (serverId : Uuid) (sessionId : SessionId) (vapidPublicKey : Bytes) : Outcome :=
  let s := s.setSnapshot (fun snapshot => { snapshot with
    status := .connected, serverId := some serverId, sessionId := some sessionId
    vapidPublicKey := some vapidPublicKey, error := none })
  ((s.sendIdentities env socket).andThen
    (fun s => s.send env socket (availability s.ready))).andThen
    (fun s => s.drain env socket)

/-- Complete pairing or authentication for a connecting socket. -/
def RemoteSession.handshake (env : Environment) (s : RemoteSession) (socket : SocketId)
    (message : ServerMessage) (label : String) (now : Nat) : Outcome :=
  match s.target with
  | none => s.done
  | some endpoint =>
      match message with
      | .rejected =>
          let r := s.finish socket .rejected "server rejected the connection"
          ⟨r.1, r.2, none⟩
      | .paired serverId clientId credential sessionId vapidPublicKey =>
          if s.pairing.isSome then s.throw .alreadyPaired
          else
            let pairing := ⟨endpoint, serverId, clientId, credential, label, now⟩
            ⟨{ s with chain := .saving socket pairing sessionId vapidPublicKey },
              [.saving pairing], none⟩
      | .authenticated serverId sessionId vapidPublicKey =>
          if s.pairing.any (fun pairing => pairing.serverId = serverId) then
            s.connected env socket serverId sessionId vapidPublicKey
          else s.throw .serverMismatch
      | .agentRequest _ | .cancelRequest _ _ | .ping => s.throw .unexpectedMessage

/-- Decode and route one message after all earlier messages have settled. -/
def RemoteSession.receiveMessage (env : Environment) (s : RemoteSession) (received : Received)
    (now : Nat) : Outcome :=
  if s.socket = some received.socket then
    match received.frame with
    | .text => s.throw .notBinary
    | .malformed error => s.throw (.malformed error)
    | .message message =>
        match s.snapshot.status with
        | .connecting | .reconnecting =>
            s.handshake env received.socket message received.label now
        | .rejected | .error => s.done
        | .connected =>
            match message with
            | .ping => s.send env received.socket .pong
            | .agentRequest request => s.enqueue env received.socket request
            | .cancelRequest requestId attempt => s.cancel requestId attempt now
            | .paired _ _ _ _ _ | .authenticated _ _ _ | .rejected => s.throw .lateHandshake
  else s.done

/-! ## Lifecycle -/

/-- Open one socket unless another attempt or connection already owns the
    session. -/
def RemoteSession.openSocket (s : RemoteSession) : RemoteSession × List ClientOutput :=
  match s.target, s.label with
  | some endpoint, some label =>
      if ¬ s.active ∨ s.socket.isSome then (s, [])
      else
        ({ s with
            generation := s.generation + 1
            opens := s.opens.insert (s.generation + 1) ⟨endpoint, label⟩ },
          [.loading endpoint])
  | _, _ => (s, [])

/-- Lose the socket, publish, and maybe open another one. -/
def RemoteSession.restart (s : RemoteSession) (status : Status) :
    RemoteSession × List ClientOutput :=
  let r := s.stopRetry.closeSocket
  (r.1.setSnapshot (detached status none), r.2)

/-- Run a second part after a first. -/
def followedBy (r : RemoteSession × List ClientOutput)
    (next : RemoteSession → RemoteSession × List ClientOutput) :
    RemoteSession × List ClientOutput :=
  ((next r.1).1, r.2 ++ (next r.1).2)

/-- Start and permanently remember the desired connection. -/
def RemoteSession.connect (env : Environment) (s : RemoteSession) (endpoint label : String) :
    RemoteSession × List ClientOutput :=
  match env.href endpoint with
  | none => (s, [.threw .invalidEndpoint])
  | some href =>
      followedBy
        ({ s with endpoint := some href, label := some label, active := true }.restart .connecting)
        RemoteSession.openSocket

/-- Reconcile the desired connection with page visibility and network state. -/
def RemoteSession.setActive (s : RemoteSession) (active : Bool) :
    RemoteSession × List ClientOutput :=
  let s := { s with active }.stopRetry
  if s.snapshot.status = .rejected ∨ s.snapshot.status = .error then (s, [])
  else if active then
    if s.socket.isSome then (s, [])
    else (s.setSnapshot (detached .reconnecting none)).openSocket
  else s.restart .reconnecting

/-- Disconnect, then remove the credential stored for an endpoint. -/
def RemoteSession.forgetPairing (env : Environment) (s : RemoteSession) (endpoint : String) :
    RemoteSession × List ClientOutput :=
  match env.href endpoint with
  | none => (s, [.threw .invalidEndpoint])
  | some normalized =>
      followedBy (s.restart .reconnecting)
        (fun s => ({ s with forgets := normalized :: s.forgets }, [.deleting normalized]))

/-- The caller of a method sees what it threw. -/
def Outcome.exposed (r : Outcome) : RemoteSession × List ClientOutput :=
  match r.thrown with
  | none => (r.session, r.outputs)
  | some cause => (r.session, r.outputs ++ [.threw cause])

/-- Publish agent availability and attempt buffered requests when unlocked. -/
def RemoteSession.setReady (env : Environment) (s : RemoteSession) (ready : Bool) :
    RemoteSession × List ClientOutput :=
  let s := { s with ready }
  match s.socket with
  | none => (s, [])
  | some socket =>
      if s.snapshot.status = .connected then
        ((s.send env socket (availability ready)).andThen
          (fun s => if ready then s.drain env socket else s.done)).exposed
      else (s, [])

/-- Register or replace this paired client's Web Push subscription. -/
def RemoteSession.registerPushSubscription (env : Environment) (s : RemoteSession)
    (subscription : PushSubscription) : RemoteSession × List ClientOutput :=
  match s.socket with
  | none => (s, [.threw .notConnected])
  | some socket =>
      if s.snapshot.status = .connected then
        (s.send env socket (.setPushSubscription subscription)).exposed
      else (s, [.threw .notConnected])

/-- Replace the public identities advertised by the paired server. -/
def RemoteSession.setIdentities (env : Environment) (s : RemoteSession)
    (identities : List AgentIdentity) : RemoteSession × List ClientOutput :=
  let s := { s with identities }
  match s.socket with
  | none => (s, [])
  | some socket =>
      if s.snapshot.status = .connected then (s.sendIdentities env socket).exposed else (s, [])

/-! ## Turns of the event loop -/

/-- What happens to the session next. -/
inductive ClientAction where
  | connect (endpoint label : String)
  | setActive (active : Bool)
  | forgetPairing (endpoint : String)
  | setReady (ready : Bool)
  | registerPushSubscription (subscription : PushSubscription)
  | setIdentities (identities : List AgentIdentity)
  /-- The retry timer fires. -/
  | retry
  /-- The load of the `#open` of a generation settles; `created` is what
      `createSocket` does next, if it is reached. -/
  | loaded (generation : Nat) (pairing : Except String (Option PairingRecord))
      (created : Except String SocketId)
  /-- A deletion settles. -/
  | deleted (endpoint : String) (error : Option String)
  /-- Events of a socket; `closing` is the browser's own change of state. -/
  | opened (socket : SocketId)
  | message (socket : SocketId) (frame : Frame)
  | errored (socket : SocketId)
  | closing (socket : SocketId)
  | closed (socket : SocketId)
  /-- The chain goes on with its oldest frame. -/
  | receive (now : Nat)
  /-- The save that the chain awaits settles. -/
  | saved (error : Option String)
  /-- The `catch` of the chain. -/
  | caught
  /-- A handler settles. -/
  | resolved (token : Nat) (packet : Bytes)
  | rejected (token : Nat) (error : String)
  /-- The `catch` of a handler. -/
  | handlerCaught (token : Nat)

/-- The first message on a socket. -/
def WebSocket.greeting (w : WebSocket) : ClientMessage :=
  match w.pairing with
  | some pairing => .authenticate pairing.clientId pairing.credential
  | none => .pairRequest w.label

/-- A link of the chain that throws has its `catch` due. -/
def Outcome.chained (r : Outcome) (socket : SocketId) : RemoteSession × List ClientOutput :=
  match r.thrown with
  | none => (r.session, r.outputs)
  | some cause => ({ r.session with chain := .failing socket cause }, r.outputs)

def RemoteSession.setReadyState (s : RemoteSession) (socket : SocketId) (w : WebSocket)
    (readyState : ReadyState) : RemoteSession :=
  { s with sockets := Function.update s.sockets socket (some { w with readyState }) }

/-- The rest of `#open`, once `loadPairing` has settled. -/
def RemoteSession.loaded (s : RemoteSession) (generation : Nat) (opening : Opening)
    (pairing : Except String (Option PairingRecord)) (created : Except String SocketId) :
    Option (RemoteSession × List ClientOutput) :=
  match pairing with
  | .error error =>
      if generation = s.generation then
        some (s.setSnapshot (detached .error (some error)), [])
      else some (s, [])
  | .ok pairing =>
      if generation ≠ s.generation ∨ ¬ s.active ∨ s.socket.isSome then some (s, [])
      else
        match created with
        | .error error => some (s.setSnapshot (detached .error (some error)), [])
        | .ok socket =>
            match s.sockets socket with
            -- a new socket is a new object
            | some _ => none
            | none =>
                some ({ s with
                  pairing, socket := some socket
                  sockets := Function.update s.sockets socket
                    (some ⟨.connecting, pairing, opening.label⟩) }, [.created socket])

/-- The listener of the `open` event. -/
def RemoteSession.opened (env : Environment) (s : RemoteSession) (socket : SocketId)
    (w : WebSocket) : RemoteSession × List ClientOutput :=
  let r := s.send env socket w.greeting
  match r.thrown with
  | none => (r.session, r.outputs)
  | some cause => r.session.fail socket cause

/-- The continuation of `savePairing` in `#handshake`. -/
def RemoteSession.paired (env : Environment) (s : RemoteSession) (socket : SocketId)
    (pairing : PairingRecord) (sessionId : SessionId) (vapidPublicKey : Bytes) : Outcome :=
  if s.socket = some socket then
    { s with pairing := some pairing }.connected env socket pairing.serverId sessionId
      vapidPublicKey
  else s.done

/-- The continuation of a handler in `#tryProcess`. -/
def RemoteSession.respond (env : Environment) (s : RemoteSession) (h : Handler)
    (packet : Bytes) : Outcome :=
  if s.socket = some h.socket ∧
      (s.pending.get? (requestKey h.pending.request)).any
        (fun pending => pending.token = h.pending.token) then
    (s.send env h.socket
      (.agentResponse h.pending.request.request_id h.pending.request.attempt packet)).andThen
      (fun s => ⟨{ s with pending := s.pending.erase (requestKey h.pending.request) }.pendingChanged,
        [.settled h.pending.request .signed], none⟩)
  else s.done

/-- The handler is over, or its `catch` is due. -/
def Outcome.handled (r : Outcome) (token : Nat) (h : Handler) :
    RemoteSession × List ClientOutput :=
  match r.thrown with
  | none => (r.session, r.outputs)
  | some cause =>
      ({ r.session with
          handlers := r.session.handlers.insert token { h with thrown := some cause } },
        r.outputs)

def RemoteSession.release (s : RemoteSession) (token : Nat) : RemoteSession :=
  { s with handlers := s.handlers.erase token }

/-- One turn of the event loop, if it can happen. -/
def RemoteSession.step (env : Environment) (s : RemoteSession) :
    ClientAction → Option (RemoteSession × List ClientOutput)
  | .connect endpoint label => some (s.connect env endpoint label)
  | .setActive active => some (s.setActive active)
  | .forgetPairing endpoint => some (s.forgetPairing env endpoint)
  | .setReady ready => some (s.setReady env ready)
  | .registerPushSubscription subscription => some (s.registerPushSubscription env subscription)
  | .setIdentities identities => some (s.setIdentities env identities)
  | .retry => if s.retryTimer then some { s with retryTimer := false }.openSocket else none
  | .loaded generation pairing created =>
      match s.opens.get? generation with
      | none => none
      | some opening =>
          { s with opens := s.opens.erase generation }.loaded generation opening pairing created
  | .deleted endpoint error =>
      if endpoint ∈ s.forgets then
        let s := { s with forgets := s.forgets.erase endpoint }
        match error with
        | some error => some (s, [.threw (.store error)])
        | none => if s.endpoint = some endpoint ∧ s.active then some s.openSocket else some (s, [])
      else none
  | .opened socket =>
      match s.sockets socket with
      | none => none
      | some w =>
          if w.readyState = .connecting then
            some ((s.setReadyState socket w .open).opened env socket w)
          else none
  | .message socket frame =>
      match s.sockets socket with
      | none => none
      | some w =>
          if w.readyState = .open then
            some ({ s with receiving := s.receiving ++ [⟨socket, frame, w.label⟩] }, [])
          else none
  | .errored socket => if (s.sockets socket).isSome then some (s.connectionLost socket) else none
  | .closing socket => some (s.closeWebSocket socket, [])
  | .closed socket =>
      match s.sockets socket with
      | none => none
      | some w =>
          if w.readyState = .closed then none
          else some ((s.setReadyState socket w .closed).connectionLost socket)
  | .receive now =>
      match s.chain, s.receiving with
      | .idle, received :: rest =>
          some (({ s with receiving := rest }.receiveMessage env received now).chained
            received.socket)
      | _, _ => none
  | .saved error =>
      match s.chain with
      | .saving socket pairing sessionId vapidPublicKey =>
          match error with
          | some error => some ({ s with chain := .failing socket (.store error) }, [])
          | none =>
              some (({ s with chain := .idle }.paired env socket pairing sessionId
                vapidPublicKey).chained socket)
      | _ => none
  | .caught =>
      match s.chain with
      | .failing socket cause => some ({ s with chain := .idle }.fail socket cause)
      | _ => none
  | .resolved token packet =>
      match s.handlers.get? token with
      | some ⟨socket, pending, none⟩ =>
          let r := ((s.release token).respond env ⟨socket, pending, none⟩ packet).handled token
            ⟨socket, pending, none⟩
          some (r.1, .resolved socket pending.request packet :: r.2)
      | _ => none
  | .rejected token error =>
      match s.handlers.get? token with
      | some ⟨socket, pending, none⟩ =>
          some (((s.release token).throw (.handler error)).handled token ⟨socket, pending, none⟩)
      | _ => none
  | .handlerCaught token =>
      match s.handlers.get? token with
      | some ⟨socket, _, some cause⟩ => some ((s.release token).fail socket cause)
      | _ => none

/-- A session that has just been constructed. -/
def RemoteSession.new : RemoteSession where
  socket := none
  endpoint := none
  label := none
  pairing := none
  ready := false
  identities := []
  active := true
  retryTimer := false
  generation := 0
  receiving := []
  chain := .idle
  pending := .empty
  snapshot := ⟨.connecting, none, none, none, 0, none⟩
  sockets := fun _ => none
  opens := .empty
  forgets := []
  handlers := .empty
  allocated := 0

/-! ## How a turn goes -/

/-- How the load of an `#open` settles: it is superseded or refused, it fails, or
    its socket is adopted. -/
inductive LoadSettled (s : RemoteSession) (generation : Nat) (opening : Opening) :
    Except String (Option PairingRecord) → Except String SocketId →
    RemoteSession → List ClientOutput → Prop where
  | ignored {pairing created} : generation ≠ s.generation ∨ ¬ s.active ∨ s.socket.isSome →
      LoadSettled s generation opening pairing created s []
  | broken {pairing created} (error : String) : generation = s.generation →
      LoadSettled s generation opening pairing created
        (s.setSnapshot (detached .error (some error))) []
  | adopted {pairing socket} : generation = s.generation → s.socket = none →
      s.sockets socket = none →
      LoadSettled s generation opening (.ok pairing) (.ok socket)
        { s with
          pairing, socket := some socket
          sockets := Function.update s.sockets socket
            (some ⟨.connecting, pairing, opening.label⟩) } [.created socket]

theorem loaded_cases {s s' : RemoteSession} {generation : Nat} {opening : Opening}
    {pairing : Except String (Option PairingRecord)} {created : Except String SocketId}
    {outputs : List ClientOutput}
    (h : s.loaded generation opening pairing created = some (s', outputs)) :
    LoadSettled s generation opening pairing created s' outputs := by
  rw [RemoteSession.loaded.eq_def] at h
  cases pairing with
  | error error =>
      simp only at h
      split at h
      · rename_i hg
        obtain ⟨rfl, rfl⟩ := Prod.mk.inj (Option.some.inj h)
        exact .broken error hg
      · rename_i hg
        obtain ⟨rfl, rfl⟩ := Prod.mk.inj (Option.some.inj h)
        exact .ignored (Or.inl hg)
  | ok pairing =>
      simp only at h
      split at h
      · rename_i hagainst
        obtain ⟨rfl, rfl⟩ := Prod.mk.inj (Option.some.inj h)
        exact .ignored hagainst
      · rename_i hgo
        obtain ⟨hg, hgo⟩ := not_or.mp hgo
        have hfree := Option.not_isSome_iff_eq_none.mp (not_or.mp hgo).2
        cases created with
        | error error =>
            obtain ⟨rfl, rfl⟩ := Prod.mk.inj (Option.some.inj h)
            exact .broken error (not_not.mp hg)
        | ok socket =>
            simp only at h
            split at h
            · cases h
            · rename_i hnew
              obtain ⟨rfl, rfl⟩ := Prod.mk.inj (Option.some.inj h)
              exact .adopted (not_not.mp hg) hfree hnew

/-- How the deletion behind `forgetPairing` settles: it fails, or the endpoint is
    opened again if it is still the session's. -/
inductive DeletionSettled (s : RemoteSession) (endpoint : String) :
    Option String → RemoteSession → List ClientOutput → Prop where
  | failed (error : String) : DeletionSettled s endpoint (some error) s [.threw (.store error)]
  | reopened : s.endpoint = some endpoint ∧ s.active →
      DeletionSettled s endpoint none s.openSocket.1 s.openSocket.2
  | left : ¬ (s.endpoint = some endpoint ∧ s.active) → DeletionSettled s endpoint none s []

/-- Every way a turn can happen, with its guard. -/
inductive ClientStepped (env : Environment) (s : RemoteSession) :
    ClientAction → RemoteSession → List ClientOutput → Prop where
  | connect (endpoint label : String) :
      ClientStepped env s (.connect endpoint label)
        (s.connect env endpoint label).1 (s.connect env endpoint label).2
  | setActive (active : Bool) :
      ClientStepped env s (.setActive active) (s.setActive active).1 (s.setActive active).2
  | forgetPairing (endpoint : String) :
      ClientStepped env s (.forgetPairing endpoint)
        (s.forgetPairing env endpoint).1 (s.forgetPairing env endpoint).2
  | setReady (ready : Bool) :
      ClientStepped env s (.setReady ready) (s.setReady env ready).1 (s.setReady env ready).2
  | registerPushSubscription (subscription : PushSubscription) :
      ClientStepped env s (.registerPushSubscription subscription)
        (s.registerPushSubscription env subscription).1
        (s.registerPushSubscription env subscription).2
  | setIdentities (identities : List AgentIdentity) :
      ClientStepped env s (.setIdentities identities)
        (s.setIdentities env identities).1 (s.setIdentities env identities).2
  | retry : s.retryTimer = true →
      ClientStepped env s .retry { s with retryTimer := false }.openSocket.1
        { s with retryTimer := false }.openSocket.2
  | loaded {generation opening pairing created s' outputs} :
      s.opens.get? generation = some opening →
      LoadSettled { s with opens := s.opens.erase generation } generation opening pairing created
        s' outputs →
      ClientStepped env s (.loaded generation pairing created) s' outputs
  | deleted {endpoint error s' outputs} : endpoint ∈ s.forgets →
      DeletionSettled { s with forgets := s.forgets.erase endpoint } endpoint error s' outputs →
      ClientStepped env s (.deleted endpoint error) s' outputs
  | opened {socket w} : s.sockets socket = some w → w.readyState = .connecting →
      ClientStepped env s (.opened socket)
        ((s.setReadyState socket w .open).opened env socket w).1
        ((s.setReadyState socket w .open).opened env socket w).2
  | message {socket frame w} : s.sockets socket = some w → w.readyState = .open →
      ClientStepped env s (.message socket frame)
        { s with receiving := s.receiving ++ [⟨socket, frame, w.label⟩] } []
  | errored {socket} : (s.sockets socket).isSome →
      ClientStepped env s (.errored socket) (s.connectionLost socket).1 (s.connectionLost socket).2
  | closing (socket : SocketId) :
      ClientStepped env s (.closing socket) (s.closeWebSocket socket) []
  | closed {socket w} : s.sockets socket = some w → w.readyState ≠ .closed →
      ClientStepped env s (.closed socket)
        ((s.setReadyState socket w .closed).connectionLost socket).1
        ((s.setReadyState socket w .closed).connectionLost socket).2
  | receive {now received rest} : s.chain = .idle → s.receiving = received :: rest →
      ClientStepped env s (.receive now)
        (({ s with receiving := rest }.receiveMessage env received now).chained received.socket).1
        (({ s with receiving := rest }.receiveMessage env received now).chained received.socket).2
  | saveFailed {socket pairing sessionId vapidPublicKey error} :
      s.chain = .saving socket pairing sessionId vapidPublicKey →
      ClientStepped env s (.saved (some error))
        { s with chain := .failing socket (.store error) } []
  | saved {socket pairing sessionId vapidPublicKey} :
      s.chain = .saving socket pairing sessionId vapidPublicKey →
      ClientStepped env s (.saved none)
        (({ s with chain := .idle }.paired env socket pairing sessionId
          vapidPublicKey).chained socket).1
        (({ s with chain := .idle }.paired env socket pairing sessionId
          vapidPublicKey).chained socket).2
  | caught {socket cause} : s.chain = .failing socket cause →
      ClientStepped env s .caught ({ s with chain := .idle }.fail socket cause).1
        ({ s with chain := .idle }.fail socket cause).2
  | resolved {token packet socket pending} :
      s.handlers.get? token = some ⟨socket, pending, none⟩ →
      ClientStepped env s (.resolved token packet)
        (((s.release token).respond env ⟨socket, pending, none⟩ packet).handled token
          ⟨socket, pending, none⟩).1
        (.resolved socket pending.request packet ::
          (((s.release token).respond env ⟨socket, pending, none⟩ packet).handled token
            ⟨socket, pending, none⟩).2)
  | rejected {token error socket pending} :
      s.handlers.get? token = some ⟨socket, pending, none⟩ →
      ClientStepped env s (.rejected token error)
        (((s.release token).throw (.handler error)).handled token ⟨socket, pending, none⟩).1
        (((s.release token).throw (.handler error)).handled token ⟨socket, pending, none⟩).2
  | handlerCaught {token socket pending cause} :
      s.handlers.get? token = some ⟨socket, pending, some cause⟩ →
      ClientStepped env s (.handlerCaught token) ((s.release token).fail socket cause).1
        ((s.release token).fail socket cause).2

/-- **Inversion of a turn.** -/
theorem client_step_cases {env : Environment} {s s' : RemoteSession} {action : ClientAction}
    {outputs : List ClientOutput} (h : s.step env action = some (s', outputs)) :
    ClientStepped env s action s' outputs := by
  cases action with
  | connect endpoint label =>
      obtain ⟨rfl, rfl⟩ := Prod.mk.inj (Option.some.inj h)
      exact .connect endpoint label
  | setActive active =>
      obtain ⟨rfl, rfl⟩ := Prod.mk.inj (Option.some.inj h)
      exact .setActive active
  | forgetPairing endpoint =>
      obtain ⟨rfl, rfl⟩ := Prod.mk.inj (Option.some.inj h)
      exact .forgetPairing endpoint
  | setReady ready =>
      obtain ⟨rfl, rfl⟩ := Prod.mk.inj (Option.some.inj h)
      exact .setReady ready
  | registerPushSubscription subscription =>
      obtain ⟨rfl, rfl⟩ := Prod.mk.inj (Option.some.inj h)
      exact .registerPushSubscription subscription
  | setIdentities identities =>
      obtain ⟨rfl, rfl⟩ := Prod.mk.inj (Option.some.inj h)
      exact .setIdentities identities
  | retry =>
      simp only [RemoteSession.step] at h
      split at h
      · rename_i htimer
        obtain ⟨rfl, rfl⟩ := Prod.mk.inj (Option.some.inj h)
        exact .retry htimer
      · cases h
  | loaded generation pairing created =>
      simp only [RemoteSession.step] at h
      split at h
      · cases h
      · rename_i opening ho
        exact .loaded ho (loaded_cases h)
  | deleted endpoint error =>
      simp only [RemoteSession.step] at h
      split at h
      · rename_i hmem
        refine .deleted hmem ?_
        split at h
        · obtain ⟨rfl, rfl⟩ := Prod.mk.inj (Option.some.inj h)
          exact .failed _
        · split at h
          · rename_i hsame
            obtain ⟨rfl, rfl⟩ := Prod.mk.inj (Option.some.inj h)
            exact .reopened hsame
          · rename_i hother
            obtain ⟨rfl, rfl⟩ := Prod.mk.inj (Option.some.inj h)
            exact .left hother
      · cases h
  | opened socket =>
      simp only [RemoteSession.step] at h
      split at h
      · cases h
      · rename_i w hw
        split at h
        · rename_i hstate
          obtain ⟨rfl, rfl⟩ := Prod.mk.inj (Option.some.inj h)
          exact .opened hw hstate
        · cases h
  | message socket frame =>
      simp only [RemoteSession.step] at h
      split at h
      · cases h
      · rename_i w hw
        split at h
        · rename_i hstate
          obtain ⟨rfl, rfl⟩ := Prod.mk.inj (Option.some.inj h)
          exact .message hw hstate
        · cases h
  | errored socket =>
      simp only [RemoteSession.step] at h
      split at h
      · rename_i hw
        obtain ⟨rfl, rfl⟩ := Prod.mk.inj (Option.some.inj h)
        exact .errored hw
      · cases h
  | closing socket =>
      obtain ⟨rfl, rfl⟩ := Prod.mk.inj (Option.some.inj h)
      exact .closing socket
  | closed socket =>
      simp only [RemoteSession.step] at h
      split at h
      · cases h
      · rename_i w hw
        split at h
        · cases h
        · rename_i hstate
          obtain ⟨rfl, rfl⟩ := Prod.mk.inj (Option.some.inj h)
          exact .closed hw hstate
  | receive now =>
      simp only [RemoteSession.step] at h
      split at h
      · rename_i received rest hc hr
        obtain ⟨rfl, rfl⟩ := Prod.mk.inj (Option.some.inj h)
        exact .receive hc hr
      · cases h
  | saved error =>
      simp only [RemoteSession.step] at h
      split at h
      · rename_i socket pairing sessionId vapidPublicKey hc
        split at h
        · obtain ⟨rfl, rfl⟩ := Prod.mk.inj (Option.some.inj h)
          exact .saveFailed hc
        · obtain ⟨rfl, rfl⟩ := Prod.mk.inj (Option.some.inj h)
          exact .saved hc
      · cases h
  | caught =>
      simp only [RemoteSession.step] at h
      split at h
      · rename_i socket cause hc
        obtain ⟨rfl, rfl⟩ := Prod.mk.inj (Option.some.inj h)
        exact .caught hc
      · cases h
  | resolved token packet =>
      simp only [RemoteSession.step] at h
      split at h
      · rename_i socket pending hh
        obtain ⟨rfl, rfl⟩ := Prod.mk.inj (Option.some.inj h)
        exact .resolved hh
      · cases h
  | rejected token error =>
      simp only [RemoteSession.step] at h
      split at h
      · rename_i socket pending hh
        obtain ⟨rfl, rfl⟩ := Prod.mk.inj (Option.some.inj h)
        exact .rejected hh
      · cases h
  | handlerCaught token =>
      simp only [RemoteSession.step] at h
      split at h
      · rename_i socket pending cause hh
        obtain ⟨rfl, rfl⟩ := Prod.mk.inj (Option.some.inj h)
        exact .handlerCaught hh
      · cases h

end RemoteClient
