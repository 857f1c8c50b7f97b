import AgentWitness.WorkerProofs

/-! # What the worker sets in its session

    The ready flag and the advertised identities are settings: `setReady` and
    `setIdentities` write one each, and NOTHING ELSE TOUCHES THEM, whatever
    happens to the connection. -/

namespace SessionSettings

open Packet KeyedMap RemoteProtocol RemoteClient ClientFlow Lifecycle Worker

variable {env : Environment}

/-- The flag and the identities. -/
def settings (s : RemoteSession) : Bool × List AgentIdentity := (s.ready, s.identities)

theorem clearPending_settings (s : RemoteSession) : settings s.clearPending = settings s := by
  rw [RemoteSession.clearPending]
  split <;> rfl

theorem closeSocket_settings (s : RemoteSession) : settings s.closeSocket.1 = settings s := by
  simp only [RemoteSession.closeSocket]
  cases s.socket with
  | none => exact clearPending_settings _
  | some socket => exact clearPending_settings _

theorem finish_settings (s : RemoteSession) (socket : SocketId) (status : Status)
    (error : String) : settings (s.finish socket status error).1 = settings s := by
  rw [RemoteSession.finish]
  split
  · exact clearPending_settings _
  · rfl

theorem scheduleRetry_settings (s : RemoteSession) : settings s.scheduleRetry = settings s := by
  rw [RemoteSession.scheduleRetry]
  split <;> rfl

theorem connectionLost_settings (s : RemoteSession) (socket : SocketId) :
    settings (s.connectionLost socket).1 = settings s := by
  rw [RemoteSession.connectionLost]
  split
  · exact (scheduleRetry_settings _).trans (clearPending_settings _)
  · rfl

theorem fail_settings (s : RemoteSession) (socket : SocketId) (cause : Cause) :
    settings (s.fail socket cause).1 = settings s := by
  rw [RemoteSession.fail]
  split
  · exact finish_settings _ _ _ _
  · exact connectionLost_settings _ _

theorem openSocket_settings (s : RemoteSession) : settings s.openSocket.1 = settings s := by
  rw [RemoteSession.openSocket]
  split
  · split <;> rfl
  · rfl

theorem restart_settings (s : RemoteSession) (status : Status) :
    settings (s.restart status).1 = settings s :=
  closeSocket_settings s.stopRetry

theorem exposed_fst (r : Outcome) : r.exposed.1 = r.session := by
  rw [Outcome.exposed]
  cases r.thrown <;> rfl

theorem chained_settings (r : Outcome) (socket : SocketId) :
    settings (r.chained socket).1 = settings r.session := by
  rw [Outcome.chained]
  cases r.thrown <;> rfl

theorem handled_settings (r : Outcome) (token : Nat) (h : Handler) :
    settings (r.handled token h).1 = settings r.session := by
  rw [Outcome.handled]
  cases r.thrown <;> rfl

theorem send_session (s : RemoteSession) (socket : SocketId) (message : ClientMessage) :
    (s.send env socket message).session = s := by
  rw [RemoteSession.send]
  split
  · cases env.encodeError message <;> rfl
  · rfl

theorem connect_settings (s : RemoteSession) (endpoint label : String) :
    settings (s.connect env endpoint label).1 = settings s := by
  rw [RemoteSession.connect]
  split
  · rfl
  · exact (openSocket_settings _).trans (restart_settings _ _)

theorem setActive_settings (s : RemoteSession) (active : Bool) :
    settings (s.setActive active).1 = settings s := by
  simp only [RemoteSession.setActive]
  split
  · rfl
  · split
    · split
      · rfl
      · exact openSocket_settings _
    · exact restart_settings _ _

theorem forgetPairing_settings (s : RemoteSession) (endpoint : String) :
    settings (s.forgetPairing env endpoint).1 = settings s := by
  rw [RemoteSession.forgetPairing]
  split
  · rfl
  · exact restart_settings s .reconnecting

theorem registerPushSubscription_settings (s : RemoteSession) (subscription : PushSubscription) :
    settings (s.registerPushSubscription env subscription).1 = settings s := by
  rw [RemoteSession.registerPushSubscription]
  split
  · rfl
  · split
    · rw [exposed_fst, send_session]
    · rfl

/-- `setIdentities` replaces the identities, also when it throws. -/
theorem setIdentities_settings (s : RemoteSession) (identities : List AgentIdentity) :
    settings (s.setIdentities env identities).1 = (s.ready, identities) := by
  simp only [RemoteSession.setIdentities]
  split
  · rfl
  · split
    · rw [exposed_fst, RemoteSession.sendIdentities, send_session]
      rfl
    · rfl

theorem tryProcess_settings (s : RemoteSession) (socket : SocketId) (key : Key) :
    settings (s.tryProcess env socket key).session = settings s := by
  rw [RemoteSession.tryProcess]
  cases s.pending.get? key with
  | none => rfl
  | some pending =>
      dsimp only
      split
      · rfl
      · rfl

theorem andThen_settings {s : RemoteSession} {r : Outcome} {next : RemoteSession → Outcome}
    (hr : settings r.session = settings s)
    (hnext : settings (next r.session).session = settings r.session) :
    settings (r.andThen next).session = settings s := by
  rw [Outcome.andThen]
  cases r.thrown with
  | some cause => exact hr
  | none => exact hnext.trans hr

theorem drain_settings (s : RemoteSession) (socket : SocketId) :
    settings (s.drain env socket).session = settings s := by
  have hloop : ∀ (keys : List Key) (r : Outcome), settings r.session = settings s →
      settings (keys.foldl
        (fun r key => r.andThen (fun s => s.tryProcess env socket key)) r).session
        = settings s := by
    intro keys
    induction keys with
    | nil => exact fun _ hr => hr
    | cons key rest ih =>
        intro r hr
        exact ih _ (andThen_settings hr (tryProcess_settings _ _ _))
  exact hloop _ _ rfl

theorem enqueue_settings (s : RemoteSession) (socket : SocketId) (request : RemoteRequest) :
    settings (s.enqueue env socket request).session = settings s := by
  rw [RemoteSession.enqueue]
  split
  · rfl
  · split
    · rfl
    · exact tryProcess_settings _ _ _

theorem cancel_settings (s : RemoteSession) (requestId : RequestId) (attempt : UInt32)
    (now : Nat) : settings (s.cancel requestId attempt now).session = settings s := by
  rw [RemoteSession.cancel]
  split
  · rfl
  · rfl

/-- `setReady` sets the flag, also when it throws. -/
theorem setReady_settings (s : RemoteSession) (ready : Bool) :
    settings (s.setReady env ready).1 = (ready, s.identities) := by
  simp only [RemoteSession.setReady]
  split
  · rfl
  · split
    · rw [exposed_fst]
      refine andThen_settings (s := { s with ready := ready }) ?_ ?_
      · rw [send_session]
      · rw [send_session]
        split
        · exact drain_settings _ _
        · rfl
    · rfl

theorem connected_settings (s : RemoteSession) (socket : SocketId)
    (serverId : Uuid) (sessionId : SessionId) (vapidPublicKey : Bytes) :
    settings (s.connected env socket serverId sessionId vapidPublicKey).session = settings s := by
  rw [RemoteSession.connected]
  refine andThen_settings (andThen_settings ?_ ?_) (drain_settings _ _)
  · rw [RemoteSession.sendIdentities, send_session]
    rfl
  · rw [send_session]

theorem handshake_settings (s : RemoteSession) (socket : SocketId)
    (message : ServerMessage) (label : String) (now : Nat) :
    settings (s.handshake env socket message label now).session = settings s := by
  rw [RemoteSession.handshake]
  split
  · rfl
  · split
    · exact finish_settings _ _ _ _
    · split <;> rfl
    · split
      · exact connected_settings _ _ _ _ _
      · rfl
    · rfl
    · rfl
    · rfl

theorem receiveMessage_settings (s : RemoteSession) (received : Received) (now : Nat) :
    settings (s.receiveMessage env received now).session = settings s := by
  rw [RemoteSession.receiveMessage]
  split
  · split
    · rfl
    · rfl
    · split
      · exact handshake_settings _ _ _ _ _
      · exact handshake_settings _ _ _ _ _
      · rfl
      · rfl
      · split
        · rw [send_session]
        · exact enqueue_settings _ _ _
        · exact cancel_settings _ _ _ _
        · rfl
        · rfl
        · rfl
  · rfl

theorem opened_settings (s : RemoteSession) (socket : SocketId) (w : WebSocket) :
    settings (s.opened env socket w).1 = settings s := by
  simp only [RemoteSession.opened]
  split
  · rw [send_session]
  · rw [send_session]
    exact fail_settings _ _ _

theorem loaded_settings {s s' : RemoteSession} {generation : Nat} {opening : Opening}
    {pairing : Except String (Option PairingRecord)} {created : Except String SocketId}
    {outputs : List ClientOutput}
    (h : LoadSettled s generation opening pairing created s' outputs) :
    settings s' = settings s := by
  cases h with
  | ignored _ | broken _ _ | adopted _ _ _ => rfl

theorem paired_settings (s : RemoteSession) (socket : SocketId) (pairing : PairingRecord)
    (sessionId : SessionId) (vapidPublicKey : Bytes) :
    settings (s.paired env socket pairing sessionId vapidPublicKey).session = settings s := by
  rw [RemoteSession.paired]
  split
  · exact connected_settings { s with pairing := some pairing } _ _ _ _
  · rfl

theorem respond_settings (s : RemoteSession) (h : Handler) (packet : Bytes) :
    settings (s.respond env h packet).session = settings s := by
  rw [RemoteSession.respond]
  split
  · refine andThen_settings ?_ ?_
    · rw [send_session]
    · rfl
  · rfl

/-- **Frame lemma.**  No turn that the session takes on its own touches the settings. -/
theorem step_settings {s s' : RemoteSession} {action : ClientAction} {outputs : List ClientOutput}
    (hmethod : isMethod action = false) (h : s.step env action = some (s', outputs)) :
    settings s' = settings s := by
  cases client_step_cases h with
  | connect _ _ | setActive _ | forgetPairing _ | setReady _ | registerPushSubscription _
  | setIdentities _ => cases hmethod
  | retry _ => exact openSocket_settings _
  | loaded _ hload =>
      have hsame := loaded_settings hload
      exact hsame
  | deleted _ hdeleted =>
      cases hdeleted with
      | failed _ | left _ => rfl
      | reopened _ => exact openSocket_settings _
  | opened _ _ => exact opened_settings _ _ _
  | message _ _ | closing _ | saveFailed _ | rejected _ => rfl
  | errored _ => exact connectionLost_settings _ _
  | closed _ _ => exact connectionLost_settings _ _
  | receive _ _ => exact (chained_settings _ _).trans (receiveMessage_settings _ _ _)
  | saved _ => exact (chained_settings _ _).trans (paired_settings _ _ _ _ _)
  | caught _ => exact fail_settings _ _ _
  | resolved _ => exact (handled_settings _ _ _).trans (respond_settings _ _ _)
  | handlerCaught _ => exact fail_settings _ _ _

end SessionSettings
