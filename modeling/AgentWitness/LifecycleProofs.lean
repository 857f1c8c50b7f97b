import AgentWitness.ClientFlowProofs

/-! # The life of a client connection

    Seen from its connection, a turn of `RemoteSession` is one of few things.
    Most turns TEND the connection: they move requests and frames, and leave the
    socket, the wish to be connected and the published status alone.  The others
    lose the socket (for good, or to try again), complete a handshake, or are
    calls that decide about the connection.

    The inversion theorem of this module says so of every turn.  Two properties
    rest on it: what a connected session is connected to, and who is charged with
    the next attempt while it is not. -/

namespace Lifecycle

open Packet KeyedMap BrokerTask RemoteProtocol RemoteClient ClientFlow Transition

/-! ## Runs with their states -/

/-- A turn with the session before and after it. -/
structure Moment where
  before : RemoteSession
  outputs : List ClientOutput
  after : RemoteSession

/-- The step of the session, watched. -/
def watch (env : Environment) (s : RemoteSession) (action : ClientAction) :
    Option (RemoteSession × Moment) :=
  (s.step env action).map (fun r => (r.1, ⟨s, r.2, r.1⟩))

def AnyAction (_ : RemoteSession) (_ : ClientAction) : Prop := True

instance (s : RemoteSession) (action : ClientAction) : Decidable (AnyAction s action) :=
  inferInstanceAs (Decidable True)

/-- What has happened to a session, oldest first. -/
abbrev History := List (ClientAction × Moment)

/-- Runs of a session whose actions meet a condition. -/
abbrev SessionRun (env : Environment) (ok : RemoteSession → ClientAction → Prop)
    (h : History) (s : RemoteSession) : Prop :=
  Run (Fires (watch env) ok) RemoteSession.new h s

/-- A browser that parses and encodes everything, and starts nothing early. -/
def plainBrowser : Environment := ⟨some, fun _ => none, fun _ => false⟩

theorem watch_step {env : Environment} {s s' : RemoteSession} {action : ClientAction} {t : Moment}
    (h : watch env s action = some (s', t)) :
    s.step env action = some (s', t.outputs) ∧ t.before = s ∧ t.after = s' := by
  obtain ⟨⟨u, outputs⟩, hs, heq⟩ := Option.map_eq_some_iff.mp h
  obtain ⟨rfl, rfl⟩ := Prod.mk.inj heq
  exact ⟨hs, rfl, rfl⟩

/-! ## What a turn leaves alone -/

/-- What the session knows of its connection. -/
structure Link where
  socket : Option SocketId
  endpoint : Option String
  label : Option String
  pairing : Option PairingRecord
  active : Bool
  retryTimer : Bool
  generation : Nat
  opens : Map Nat Opening
  forgets : List String
  status : Status
  serverId : Option Uuid
  sessionId : Option SessionId
  vapidPublicKey : Option Bytes

def linkOf (s : RemoteSession) : Link where
  socket := s.socket
  endpoint := s.endpoint
  label := s.label
  pairing := s.pairing
  active := s.active
  retryTimer := s.retryTimer
  generation := s.generation
  opens := s.opens
  forgets := s.forgets
  status := s.snapshot.status
  serverId := s.snapshot.serverId
  sessionId := s.snapshot.sessionId
  vapidPublicKey := s.snapshot.vapidPublicKey

/-- The published number of requests is the number of requests. -/
def Counted (s : RemoteSession) : Prop := s.snapshot.pendingRequests = s.pending.len

/-- A change of the requests alone. -/
structure Kept (s s' : RemoteSession) : Prop where
  link : linkOf s' = linkOf s
  sockets : s'.sockets = s.sockets
  receiving : s'.receiving = s.receiving
  chain : s'.chain = s.chain
  ready : s'.ready = s.ready
  counted : Counted s → Counted s'

/-- The message that answers a request. -/
def answers : ClientMessage → Bool
  | .agentResponse _ _ _ => true
  | _ => false

/-- What such a change does to the outside, other than to answer. -/
def Plain (env : Environment) (s : RemoteSession) : ClientOutput → Prop
  | .sent socket message => s.socket = some socket ∧ answers message = false
  | .handling socket request =>
      s.socket = some socket ∧ (s.ready = true ∨ env.canProcessBeforeReady request = true)
  | .created _ | .closed _ | .disconnected => False
  | _ => True

theorem Kept.refl (s : RemoteSession) : Kept s s := ⟨rfl, rfl, rfl, rfl, rfl, id⟩

theorem Kept.trans {s t u : RemoteSession} (h : Kept s t) (h' : Kept t u) : Kept s u where
  link := h'.link.trans h.link
  sockets := h'.sockets.trans h.sockets
  receiving := h'.receiving.trans h.receiving
  chain := h'.chain.trans h.chain
  ready := h'.ready.trans h.ready
  counted := h'.counted ∘ h.counted

theorem plain_congr {env : Environment} {s t : RemoteSession} (hs : t.socket = s.socket)
    (hr : t.ready = s.ready) {o : ClientOutput} (h : Plain env s o) : Plain env t o := by
  cases o with
  | sent socket message => exact ⟨hs.trans h.1, h.2⟩
  | handling socket request =>
      refine ⟨hs.trans h.1, ?_⟩
      rw [hr]
      exact h.2
  | created _ | closed _ | disconnected => exact h
  | settled _ _ | resolved _ _ _ | loading _ | saving _ | deleting _ | threw _ => trivial

theorem Kept.socket {s t : RemoteSession} (h : Kept s t) : t.socket = s.socket :=
  congrArg Link.socket h.link

/-! ## Methods that may throw -/

section Methods

variable (env : Environment)

/-- A method that changes requests alone. -/
structure Carried (s : RemoteSession) (r : Outcome) : Prop where
  kept : Kept s r.session
  plain : ∀ o ∈ r.outputs, Plain env s o

variable {env}

theorem Carried.silent {s t : RemoteSession} (h : Kept s t) (thrown : Option Cause) :
    Carried env s ⟨t, [], thrown⟩ :=
  ⟨h, fun _ ho => (by cases ho)⟩

theorem Carried.andThen {s : RemoteSession} {r : Outcome} {next : RemoteSession → Outcome}
    (h : Carried env s r) (hnext : ∀ t, Kept s t → Carried env t (next t)) :
    Carried env s (r.andThen next) := by
  rw [Outcome.andThen]
  cases hr : r.thrown with
  | some cause => exact h
  | none =>
      have hn := hnext r.session h.kept
      refine ⟨h.kept.trans hn.kept, ?_⟩
      intro o ho
      rcases List.mem_append.mp ho with ho | ho
      · exact h.plain o ho
      · exact plain_congr h.kept.socket.symm h.kept.ready.symm (hn.plain o ho)

theorem send_carried (s : RemoteSession) (socket : SocketId) {message : ClientMessage}
    (hm : answers message = false) : Carried env s (s.send env socket message) := by
  rw [RemoteSession.send]
  split
  · rename_i hopen
    cases env.encodeError message with
    | some error => exact .silent (.refl s) _
    | none =>
        refine ⟨.refl s, ?_⟩
        intro o ho
        rw [List.mem_singleton.mp ho]
        exact ⟨hopen.1, hm⟩
  · exact .silent (.refl s) _

theorem tryProcess_carried {s : RemoteSession} {socket : SocketId} (hs : s.socket = some socket)
    (key : Key) : Carried env s (s.tryProcess env socket key) := by
  rw [RemoteSession.tryProcess]
  split
  · exact .silent (.refl s) none
  · rename_i pending hp
    split
    · exact .silent (.refl s) none
    · rename_i hgo
      refine ⟨⟨rfl, rfl, rfl, rfl, rfl, ?_⟩, ?_⟩
      · intro hc
        exact Eq.trans hc (len_insert_present s.pending hp).symm
      · intro o ho
        rw [List.mem_singleton.mp ho]
        refine ⟨hs, ?_⟩
        by_cases hr : s.ready = true
        · exact Or.inl hr
        · exact Or.inr (not_not.mp (fun hc => hgo (Or.inr ⟨hr, hc⟩)))

theorem drain_carried {s : RemoteSession} {socket : SocketId} (hs : s.socket = some socket) :
    Carried env s (s.drain env socket) := by
  have hfold : ∀ (keys : List Key) (r : Outcome), Carried env s r →
      Carried env s (keys.foldl
        (fun r key => r.andThen (fun s => s.tryProcess env socket key)) r) := by
    intro keys
    induction keys with
    | nil => exact fun r hr => hr
    | cons key rest ih =>
        intro r hr
        refine ih _ (hr.andThen ?_)
        intro t ht
        exact tryProcess_carried (ht.socket.trans hs) key
  exact hfold _ _ (.silent (.refl s) none)

/-- Publishing the number of requests makes it right. -/
theorem pendingChanged_kept {s t : RemoteSession} (hl : linkOf t = linkOf s)
    (hs : t.sockets = s.sockets) (hr : t.receiving = s.receiving) (hc : t.chain = s.chain)
    (hready : t.ready = s.ready) : Kept s t.pendingChanged :=
  ⟨hl, hs, hr, hc, hready, fun _ => rfl⟩

theorem enqueue_carried {s : RemoteSession} {socket : SocketId} (hs : s.socket = some socket)
    (request : RemoteRequest) : Carried env s (s.enqueue env socket request) := by
  rw [RemoteSession.enqueue]
  split
  · exact .silent (.refl s) _
  · split
    · exact .silent (.refl s) _
    · have hkept : Kept s ({ s with
          pending := s.pending.insert (requestKey request) ⟨request, false, s.allocated⟩
          allocated := s.allocated + 1 }.pendingChanged) :=
        pendingChanged_kept rfl rfl rfl rfl rfl
      have htry := @tryProcess_carried env _ socket (hkept.socket.trans hs) (requestKey request)
      exact ⟨hkept.trans htry.kept, htry.plain⟩

theorem cancel_carried (s : RemoteSession) (requestId : RequestId) (attempt : UInt32) (now : Nat) :
    Carried env s (s.cancel requestId attempt now) := by
  rw [RemoteSession.cancel]
  split
  · exact .silent (.refl s) none
  · refine ⟨pendingChanged_kept rfl rfl rfl rfl rfl, ?_⟩
    intro o ho
    rw [List.mem_singleton.mp ho]
    trivial

theorem answers_availability (ready : Bool) : answers (availability ready) = false := by
  cases ready with
  | false => rfl
  | true => rfl

theorem answers_greeting (w : WebSocket) : answers w.greeting = false := by
  rw [WebSocket.greeting]
  cases w.pairing with
  | none => rfl
  | some pairing => rfl

/-- The first messages of an established session. -/
theorem announce_carried {s : RemoteSession} {socket : SocketId} (hs : s.socket = some socket) :
    Carried env s (((s.sendIdentities env socket).andThen
      (fun s => s.send env socket (availability s.ready))).andThen
      (fun s => s.drain env socket)) := by
  refine Carried.andThen (Carried.andThen (send_carried s socket rfl) ?_) ?_
  · intro t _
    exact send_carried t socket (answers_availability t.ready)
  · intro t ht
    exact drain_carried (ht.socket.trans hs)

/-! ## Turns that tend the connection -/

/-- `close` was called on the socket, or the browser closed it. -/
def Shut (w : WebSocket) : Prop := w.readyState = .closing ∨ w.readyState = .closed

/-- The state of a socket moves on. -/
structure Aged (s s' : RemoteSession) : Prop where
  back : ∀ socket w', s'.sockets socket = some w' →
    ∃ w, s.sockets socket = some w ∧ w'.pairing = w.pairing ∧ (Shut w → Shut w')
  forth : ∀ socket w, s.sockets socket = some w → ∃ w', s'.sockets socket = some w'

/-- A turn that leaves the connection as it is. -/
structure Tended (action : ClientAction) (s s' : RemoteSession) : Prop where
  link : linkOf s' = linkOf s
  aged : Aged s s'
  counted : Counted s → Counted s'
  received : ∀ r ∈ s'.receiving, r ∈ s.receiving ∨ action = .message r.socket r.frame
  saving : ∀ socket pairing sessionId vapidPublicKey,
    s'.chain = .saving socket pairing sessionId vapidPublicKey →
    s.chain = .saving socket pairing sessionId vapidPublicKey ∨
      ∃ label, ⟨socket, .message (.paired pairing.serverId pairing.clientId pairing.credential
        sessionId vapidPublicKey), label⟩ ∈ s.receiving

theorem Aged.of_eq {s s' : RemoteSession} (h : s'.sockets = s.sockets) : Aged s s' := by
  constructor
  · intro socket w hw
    rw [h] at hw
    exact ⟨w, hw, rfl, id⟩
  · intro socket w hw
    rw [h]
    exact ⟨w, hw⟩

theorem Aged.trans {s t u : RemoteSession} (h : Aged s t) (h' : Aged t u) : Aged s u := by
  constructor
  · intro socket w'' hw''
    obtain ⟨w', hw', hp', hs'⟩ := h'.back socket w'' hw''
    obtain ⟨w, hw, hp, hs⟩ := h.back socket w' hw'
    exact ⟨w, hw, hp'.trans hp, hs' ∘ hs⟩
  · intro socket w hw
    obtain ⟨w', hw'⟩ := h.forth socket w hw
    exact h'.forth socket w' hw'

/-- One socket changes its state. -/
theorem aged_setReadyState {s : RemoteSession} {socket : SocketId} {w : WebSocket}
    (hw : s.sockets socket = some w) {readyState : ReadyState}
    (hs : Shut w → readyState = .closing ∨ readyState = .closed) :
    Aged s (s.setReadyState socket w readyState) := by
  constructor
  · intro other w' hw'
    by_cases ho : other = socket
    · subst ho
      change Function.update s.sockets other _ other = some w' at hw'
      rw [Function.update_self] at hw'
      obtain rfl := Option.some.inj hw'
      exact ⟨w, hw, rfl, hs⟩
    · change Function.update s.sockets socket _ other = some w' at hw'
      rw [Function.update_of_ne ho] at hw'
      exact ⟨w', hw', rfl, id⟩
  · intro other w' hw'
    by_cases ho : other = socket
    · subst ho
      exact ⟨_, Function.update_self _ _ _⟩
    · exact ⟨w', (Function.update_of_ne ho _ _).trans hw'⟩

theorem shut_close (w : WebSocket) : Shut w.close := by
  rw [WebSocket.close]
  cases hs : w.readyState with
  | connecting => exact Or.inl rfl
  | «open» => exact Or.inl rfl
  | closing => exact Or.inl hs
  | closed => exact Or.inr hs

theorem close_pairing (w : WebSocket) : w.close.pairing = w.pairing := by
  rw [WebSocket.close]
  cases w.readyState with
  | connecting => rfl
  | «open» => rfl
  | closing => rfl
  | closed => rfl

theorem aged_closeWebSocket (s : RemoteSession) (socket : SocketId) :
    Aged s (s.closeWebSocket socket) := by
  constructor
  · intro other w' hw'
    change Function.update s.sockets socket _ other = some w' at hw'
    by_cases ho : other = socket
    · subst ho
      rw [Function.update_self] at hw'
      obtain ⟨w, hw, rfl⟩ := Option.map_eq_some_iff.mp hw'
      exact ⟨w, hw, close_pairing w, fun _ => shut_close w⟩
    · rw [Function.update_of_ne ho] at hw'
      exact ⟨w', hw', rfl, id⟩
  · intro other w hw
    change ∃ w', Function.update s.sockets socket _ other = some w'
    by_cases ho : other = socket
    · subst ho
      rw [Function.update_self, hw]
      exact ⟨_, rfl⟩
    · rw [Function.update_of_ne ho]
      exact ⟨w, hw⟩

/-- A turn that neither receives a frame nor starts to save a pairing. -/
theorem Tended.of_aged {action : ClientAction} {s t : RemoteSession} (hl : linkOf t = linkOf s)
    (ha : Aged s t) (hc : Counted s → Counted t) (hr : t.receiving = s.receiving)
    (hch : t.chain = s.chain ∨ ∀ socket pairing sessionId vapidPublicKey,
      t.chain ≠ .saving socket pairing sessionId vapidPublicKey) : Tended action s t where
  link := hl
  aged := ha
  counted := hc
  received := by
    intro r hmem
    rw [hr] at hmem
    exact Or.inl hmem
  saving := by
    intro socket pairing sessionId vapidPublicKey hs
    rcases hch with hch | hch
    · rw [hch] at hs
      exact Or.inl hs
    · exact absurd hs (hch socket pairing sessionId vapidPublicKey)

theorem Tended.of_kept {action : ClientAction} {s t : RemoteSession} (h : Kept s t) :
    Tended action s t :=
  .of_aged h.link (.of_eq h.sockets) h.counted h.receiving (Or.inl h.chain)

theorem Tended.refl (action : ClientAction) (s : RemoteSession) : Tended action s s :=
  .of_kept (.refl s)

theorem Tended.kept {action : ClientAction} {s t u : RemoteSession} (h : Tended action s t)
    (h' : Kept t u) : Tended action s u where
  link := h'.link.trans h.link
  aged := h.aged.trans (.of_eq h'.sockets)
  counted := h'.counted ∘ h.counted
  received := by
    rw [h'.receiving]
    exact h.received
  saving := by
    rw [h'.chain]
    exact h.saving

theorem Tended.socket {action : ClientAction} {s t : RemoteSession} (h : Tended action s t) :
    t.socket = s.socket :=
  congrArg Link.socket h.link

/-- The chain fails. -/
theorem Tended.failing {action : ClientAction} {s t : RemoteSession} (h : Tended action s t)
    (socket : SocketId) (cause : Cause) :
    Tended action s { t with chain := .failing socket cause } :=
  ⟨h.link, h.aged.trans (.of_eq rfl), h.counted, h.received, fun _ _ _ _ hs => (by cases hs)⟩

/-! ## Losing and opening -/

/-- The session has given its socket up, and has said so. -/
structure Gone (s s' : RemoteSession) (outputs : List ClientOutput) : Prop where
  socket : s'.socket = none
  pending : s'.pending = .empty
  counted : Counted s → Counted s'
  aged : Aged s s'
  closed : ∀ socket w', s.socket = some socket → s'.sockets socket = some w' → Shut w'
  receiving : s'.receiving = s.receiving
  chain : s'.chain = s.chain
  endpoint : s'.endpoint = s.endpoint
  label : s'.label = s.label
  active : s'.active = s.active
  outputs : outputs = s.socket.toList.map .closed ++ s.disconnects

/-- Closing the socket that is given up. -/
theorem closeWebSocket_closed {s t : RemoteSession} {socket : SocketId}
    (hs : s.socket = some socket) (ht : t.sockets = s.sockets) :
    Aged s (t.closeWebSocket socket) ∧ ∀ other w', s.socket = some other →
      (t.closeWebSocket socket).sockets other = some w' → Shut w' := by
  refine ⟨(Aged.of_eq ht).trans (aged_closeWebSocket t socket), ?_⟩
  intro other w' hother hw'
  obtain rfl := Option.some.inj (hs.symm.trans hother)
  change Function.update t.sockets socket _ socket = some w' at hw'
  rw [Function.update_self] at hw'
  obtain ⟨w, _, rfl⟩ := Option.map_eq_some_iff.mp hw'
  exact shut_close w

theorem clearPending_counted {s : RemoteSession} (h : Counted s) : Counted s.clearPending := by
  rw [RemoteSession.clearPending]
  split
  · exact h
  · rfl

theorem finish_gone {s : RemoteSession} {socket : SocketId} (hs : s.socket = some socket)
    (status : Status) (error : String) :
    Gone s (s.finish socket status error).1 (s.finish socket status error).2 := by
  have hcleared := @clearPending_counted { s with socket := none }.stopRetry
  rw [RemoteSession.finish, if_pos hs]
  obtain ⟨snapshot, heq, _⟩ := clearPending_eq { s with socket := none }.stopRetry
  rw [heq] at hcleared ⊢
  obtain ⟨haged, hclosed⟩ := @closeWebSocket_closed s
    (({ s with
      socket := none, retryTimer := false, pending := .empty
      snapshot := snapshot } : RemoteSession).setSnapshot (detached status (some error)))
    socket hs rfl
  refine ⟨rfl, rfl, hcleared, haged, hclosed, rfl, rfl, rfl, rfl, rfl, ?_⟩
  rw [hs]
  rfl

/-- A retry touches nothing but the timer, and arms it if there is a use for it. -/
theorem scheduleRetry_cases (s : RemoteSession) :
    (s.scheduleRetry = s ∧ (s.active = false ∨ s.retryTimer = true ∨ s.target = none)) ∨
      s.scheduleRetry = { s with retryTimer := true } := by
  rw [RemoteSession.scheduleRetry]
  split
  · rename_i hno
    refine Or.inl ⟨rfl, ?_⟩
    rcases hno with hno | hno
    · exact Or.inl (Bool.not_eq_true _ ▸ hno)
    · exact Or.inr hno
  · exact Or.inr rfl

theorem connectionLost_gone {s : RemoteSession} {socket : SocketId} (hs : s.socket = some socket) :
    Gone s (s.connectionLost socket).1 (s.connectionLost socket).2 := by
  have hcleared := @clearPending_counted { s with socket := none }
  rw [RemoteSession.connectionLost, if_pos hs]
  obtain ⟨snapshot, heq, _⟩ := clearPending_eq { s with socket := none }
  rw [heq] at hcleared ⊢
  have hgone : Gone s (({ s with socket := none, pending := .empty, snapshot := snapshot }
      : RemoteSession).setSnapshot (detached .reconnecting none) |>.closeWebSocket socket)
      (.closed socket :: s.disconnects) := by
    obtain ⟨haged, hclosed⟩ := @closeWebSocket_closed s
      (({ s with socket := none, pending := .empty, snapshot := snapshot }
        : RemoteSession).setSnapshot (detached .reconnecting none)) socket hs rfl
    refine ⟨rfl, rfl, hcleared, haged, hclosed, rfl, rfl, rfl, rfl, rfl, ?_⟩
    rw [hs]
    rfl
  rcases scheduleRetry_cases _ with ⟨hretry, _⟩ | hretry
  · rw [hretry]
    exact hgone
  · rw [hretry]
    exact ⟨rfl, rfl, hgone.counted, hgone.aged.trans (.of_eq rfl), hgone.closed, rfl, rfl, rfl, rfl,
      rfl, hgone.outputs⟩

theorem restart_gone (s : RemoteSession) (status : Status) :
    Gone s (s.restart status).1 (s.restart status).2 := by
  have hcleared := @clearPending_counted { s with
    retryTimer := false, generation := s.generation + 1, socket := none, pairing := none }
  obtain ⟨snapshot, heq, _⟩ := clearPending_eq { s with
    retryTimer := false, generation := s.generation + 1, socket := none, pairing := none }
  rw [heq] at hcleared
  rw [RemoteSession.restart, RemoteSession.closeSocket, RemoteSession.stopRetry, heq]
  cases hs : s.socket with
  | none =>
      refine ⟨rfl, rfl, hcleared, .of_eq rfl, ?_, rfl, rfl, rfl, rfl, rfl, ?_⟩
      · intro socket w' hsome
        cases hs.symm.trans hsome
      · rw [hs]
        rfl
  | some socket =>
      obtain ⟨haged, hclosed⟩ := @closeWebSocket_closed s
        { s with
          retryTimer := false, generation := s.generation + 1, socket := none, pairing := none
          pending := .empty, snapshot := snapshot } socket hs rfl
      refine ⟨rfl, rfl, hcleared, haged.trans (.of_eq rfl), hclosed, rfl, rfl, rfl, rfl, rfl, ?_⟩
      rw [hs]
      rfl

/-- `#open` begins, or something stands against it. -/
theorem openSocket_cases (s : RemoteSession) :
    (s.openSocket = (s, []) ∧
      (s.target = none ∨ s.label = none ∨ s.active = false ∨ s.socket ≠ none)) ∨
    ∃ opening, s.socket = none ∧ s.openSocket = ({ s with
      generation := s.generation + 1
      opens := s.opens.insert (s.generation + 1) opening }, [.loading opening.endpoint]) := by
  rw [RemoteSession.openSocket.eq_def]
  split
  · rename_i endpoint label _ _
    split
    · rename_i hbusy
      refine Or.inl ⟨rfl, ?_⟩
      rcases hbusy with hbusy | hbusy
      · exact Or.inr (Or.inr (Or.inl (Bool.not_eq_true _ ▸ hbusy)))
      · exact Or.inr (Or.inr (Or.inr (Option.isSome_iff_ne_none.mp hbusy)))
    · rename_i hfree
      have hnone : s.socket = none :=
        Option.not_isSome_iff_eq_none.mp (fun hs => hfree (Or.inr hs))
      exact Or.inr ⟨⟨endpoint, label⟩, hnone, rfl⟩
  · rename_i hmissing
    refine Or.inl ⟨rfl, ?_⟩
    cases ht : s.target with
    | none => exact Or.inl rfl
    | some endpoint =>
        cases hl : s.label with
        | none => exact Or.inr (Or.inl rfl)
        | some label => exact absurd hl (hmissing endpoint label ht)

/-! ## The inversion -/

/-- The actions that decide about the connection. -/
def isCall : ClientAction → Bool
  | .connect _ _ | .setActive _ | .forgetPairing _ | .retry | .loaded _ _ _ | .deleted _ _ => true
  | _ => false

/-- What such an action does to the outside. -/
def formal : ClientOutput → Bool
  | .sent _ _ | .handling _ _ | .resolved _ _ _ | .settled _ _ | .saving _ => false
  | _ => true

/-- The session publishes that it is connected. -/
def published (s : RemoteSession) (pairing : PairingRecord) (sessionId : SessionId)
    (vapidPublicKey : Bytes) : RemoteSession :=
  { s with
    pairing := some pairing
    snapshot := { s.snapshot with
      status := .connected, serverId := some pairing.serverId, sessionId := some sessionId
      vapidPublicKey := some vapidPublicKey, error := none } }

/-- A handshake is completed: by a message, or by the save that a message has
    caused. -/
inductive Shaken (s : RemoteSession) : ClientAction → SocketId → PairingRecord → SessionId →
    Bytes → Prop where
  | authenticated {now socket pairing sessionId vapidPublicKey label rest} :
      s.snapshot.status = .connecting ∨ s.snapshot.status = .reconnecting →
      s.receiving = ⟨socket, .message (.authenticated pairing.serverId sessionId vapidPublicKey),
        label⟩ :: rest → s.pairing = some pairing →
      Shaken s (.receive now) socket pairing sessionId vapidPublicKey
  | paired {socket pairing sessionId vapidPublicKey} :
      s.chain = .saving socket pairing sessionId vapidPublicKey →
      Shaken s (.saved none) socket pairing sessionId vapidPublicKey

variable (env) in
/-- What a turn does to the connection. -/
inductive Lived (s : RemoteSession) :
    ClientAction → RemoteSession → List ClientOutput → Prop where
  | called {action s' outputs} : isCall action = true → (∀ o ∈ outputs, formal o = true) →
      Lived s action s' outputs
  | tended {action s' outputs} : Tended action s s' → (∀ o ∈ outputs, Plain env s' o) →
      Lived s action s' outputs
  | finished {action t socket status error} : Tended action s t → s.socket = some socket →
      status = .rejected ∨ status = .error →
      Lived s action (t.finish socket status error).1 (t.finish socket status error).2
  | lost {action t socket} : Tended action s t → s.socket = some socket →
      Lived s action (t.connectionLost socket).1 (t.connectionLost socket).2
  | answered {token h packet s'} : s.handlers.get? token = some h → h.thrown = none →
      s.socket = some h.socket →
      (s.pending.get? (requestKey h.pending.request)).any
        (fun pending => pending.token = h.pending.token) = true →
      s' = { s with
        pending := s.pending.erase (requestKey h.pending.request)
        handlers := s.handlers.erase token }.pendingChanged →
      Lived s (.resolved token packet) s'
        [.resolved h.socket h.pending.request packet, .sent h.socket
          (.agentResponse h.pending.request.request_id h.pending.request.attempt packet),
          .settled h.pending.request .signed]
  | greeted {action s' outputs socket pairing sessionId vapidPublicKey} :
      s.socket = some socket → Shaken s action socket pairing sessionId vapidPublicKey →
      Tended action (published s pairing sessionId vapidPublicKey) s' →
      (∀ o ∈ outputs, Plain env s' o) → Lived s action s' outputs

theorem Lived.silent {action : ClientAction} {s t : RemoteSession} (h : Tended action s t) :
    Lived env s action t [] :=
  .tended h (fun _ ho => by cases ho)

/-- A method that changes requests alone, once the connection was tended. -/
theorem Carried.lived {action : ClientAction} {s t : RemoteSession} {r : Outcome}
    (h : Tended action s t) (hr : Carried env t r) :
    Lived env s action r.session r.outputs := by
  refine .tended (h.kept hr.kept) ?_
  intro o ho
  exact plain_congr hr.kept.socket hr.kept.ready (hr.plain o ho)

theorem exposed_lived {action : ClientAction} {s t : RemoteSession} {r : Outcome}
    (h : Tended action s t) (hr : Carried env t r) :
    Lived env s action r.exposed.1 r.exposed.2 := by
  rw [Outcome.exposed]
  cases r.thrown with
  | none => exact hr.lived h
  | some cause =>
      refine .tended (h.kept hr.kept) ?_
      intro o ho
      rcases List.mem_append.mp ho with ho | ho
      · exact plain_congr hr.kept.socket hr.kept.ready (hr.plain o ho)
      · rw [List.mem_singleton.mp ho]
        trivial

/-- A link of the chain, with the connection tended and the outputs plain. -/
theorem chained_tended {action : ClientAction} {s t : RemoteSession} {r : Outcome}
    (socket : SocketId) (h : Tended action s t) (hr : Carried env t r) :
    Tended action s (r.chained socket).1 ∧
      ∀ o ∈ (r.chained socket).2, Plain env (r.chained socket).1 o := by
  have hplain : ∀ o ∈ r.outputs, Plain env r.session o := fun o ho =>
    plain_congr hr.kept.socket hr.kept.ready (hr.plain o ho)
  rw [Outcome.chained]
  cases r.thrown with
  | none => exact ⟨h.kept hr.kept, hplain⟩
  | some cause =>
      refine ⟨(h.kept hr.kept).failing socket cause, ?_⟩
      intro o ho
      exact plain_congr rfl rfl (hplain o ho)

theorem chained_lived {action : ClientAction} {s t : RemoteSession} {r : Outcome}
    (socket : SocketId) (h : Tended action s t) (hr : Carried env t r) :
    Lived env s action (r.chained socket).1 (r.chained socket).2 :=
  .tended (chained_tended socket h hr).1 (chained_tended socket h hr).2

theorem finish_lived {action : ClientAction} {s t : RemoteSession} (h : Tended action s t)
    (socket : SocketId) {status : Status} (hst : status = .rejected ∨ status = .error)
    (error : String) :
    Lived env s action (t.finish socket status error).1 (t.finish socket status error).2 := by
  by_cases hs : t.socket = some socket
  · exact .finished h (h.socket.symm.trans hs) hst
  · rw [RemoteSession.finish, if_neg hs]
    exact .silent h

theorem connectionLost_lived {action : ClientAction} {s t : RemoteSession} (h : Tended action s t)
    (socket : SocketId) :
    Lived env s action (t.connectionLost socket).1 (t.connectionLost socket).2 := by
  by_cases hs : t.socket = some socket
  · exact .lost h (h.socket.symm.trans hs)
  · rw [RemoteSession.connectionLost, if_neg hs]
    exact .silent h

theorem fail_lived {action : ClientAction} {s t : RemoteSession} (h : Tended action s t)
    (socket : SocketId) (cause : Cause) :
    Lived env s action (t.fail socket cause).1 (t.fail socket cause).2 := by
  rw [RemoteSession.fail]
  split
  · exact finish_lived h socket (Or.inr rfl) cause.message
  · exact connectionLost_lived h socket

/-- The handshake ends: the session publishes, then announces itself. -/
theorem connected_lived {action : ClientAction} {s t : RemoteSession} {socket : SocketId}
    {pairing : PairingRecord} {sessionId : SessionId} {vapidPublicKey : Bytes}
    (hs : s.socket = some socket)
    (hsh : Shaken s action socket pairing sessionId vapidPublicKey)
    (ht : Tended action (published s pairing sessionId vapidPublicKey)
      (published t pairing sessionId vapidPublicKey))
    (hp : t.pairing = some pairing) :
    Lived env s action
      ((t.connected env socket pairing.serverId sessionId vapidPublicKey).chained socket).1
      ((t.connected env socket pairing.serverId sessionId vapidPublicKey).chained socket).2 := by
  have hpub : t.setSnapshot (fun snapshot => { snapshot with
      status := .connected, serverId := some pairing.serverId, sessionId := some sessionId
      vapidPublicKey := some vapidPublicKey, error := none })
      = published t pairing sessionId vapidPublicKey := by
    rw [published, ← hp]
    rfl
  rw [RemoteSession.connected, hpub]
  have hcar := @announce_carried env _ socket (ht.socket.trans hs)
  exact .greeted hs hsh (chained_tended socket ht hcar).1 (chained_tended socket ht hcar).2

/-- Taking a frame from the chain. -/
theorem popped_tended {s : RemoteSession} {received : Received} {rest : List Received}
    (hr : s.receiving = received :: rest) (now : Nat) :
    Tended (.receive now) s { s with receiving := rest } where
  link := rfl
  aged := .of_eq rfl
  counted := id
  received := by
    intro r hmem
    rw [hr]
    exact Or.inl (List.mem_cons_of_mem _ hmem)
  saving := fun _ _ _ _ => Or.inl

/-- A message that throws is counted as received and fails its socket. -/
theorem throw_lived {s : RemoteSession} {received : Received} {rest : List Received}
    (hr : s.receiving = received :: rest) (now : Nat) (cause : Cause) :
    Lived env s (.receive now)
      (Outcome.chained (RemoteSession.throw { s with receiving := rest } cause) received.socket).1
      (Outcome.chained (RemoteSession.throw { s with receiving := rest } cause)
        received.socket).2 :=
  chained_lived received.socket (popped_tended hr now) (.silent (.refl _) (some cause))

theorem handshake_lived {s : RemoteSession} {received : Received} {rest : List Received}
    {message : ServerMessage} (now : Nat) (hr : s.receiving = received :: rest)
    (hs : s.socket = some received.socket) (hm : received.frame = .message message)
    (hst : s.snapshot.status = .connecting ∨ s.snapshot.status = .reconnecting) :
    let r := (({ s with receiving := rest } : RemoteSession).handshake env received.socket message
      received.label now).chained received.socket
    Lived env s (.receive now) r.1 r.2 := by
  have hpop := popped_tended hr now
  show Lived env s _ _ _
  rw [RemoteSession.handshake]
  split
  · exact .silent hpop
  · rename_i endpoint _
    cases message with
    | rejected => exact finish_lived hpop received.socket (Or.inl rfl) _
    | paired serverId clientId credential sessionId vapidPublicKey =>
        simp only
        split
        · exact throw_lived hr now .alreadyPaired
        · refine .tended ⟨rfl, .of_eq rfl, id, hpop.received, ?_⟩ ?_
          · intro socket pairing sessionId' vapidPublicKey' hc
            obtain ⟨rfl, rfl, rfl, rfl⟩ := Chain.saving.inj hc
            refine Or.inr ⟨received.label, ?_⟩
            rw [hr, ← hm]
            exact List.mem_cons_self
          · intro o ho
            rw [List.mem_singleton.mp ho]
            trivial
    | authenticated serverId sessionId vapidPublicKey =>
        simp only
        split
        · rename_i hknown
          obtain ⟨pairing, hp, hid⟩ : ∃ pairing, s.pairing = some pairing ∧
              pairing.serverId = serverId := by
            obtain ⟨hsome, hid⟩ := (Option.any_eq_true_iff_get _ _).mp hknown
            exact ⟨s.pairing.get hsome, (Option.some_get hsome).symm, of_decide_eq_true hid⟩
          subst hid
          have hhead : s.receiving = ⟨received.socket, .message (.authenticated pairing.serverId
              sessionId vapidPublicKey), received.label⟩ :: rest := by
            rw [hr, ← hm]
          exact connected_lived (t := { s with receiving := rest }) hs
            (.authenticated hst hhead hp)
            (popped_tended (s := published s pairing sessionId vapidPublicKey) hr now) hp
        · exact throw_lived hr now .serverMismatch
    | agentRequest request => exact throw_lived hr now .unexpectedMessage
    | cancelRequest requestId attempt => exact throw_lived hr now .unexpectedMessage
    | ping => exact throw_lived hr now .unexpectedMessage

theorem receive_lived {s : RemoteSession} {received : Received} {rest : List Received}
    (now : Nat) (hr : s.receiving = received :: rest) :
    let r := (({ s with receiving := rest } : RemoteSession).receiveMessage env received now).chained
      received.socket
    Lived env s (.receive now) r.1 r.2 := by
  have hpop := popped_tended hr now
  show Lived env s _ _ _
  rw [RemoteSession.receiveMessage]
  split
  · rename_i hs
    change s.socket = some received.socket at hs
    cases hm : received.frame with
    | text => exact throw_lived hr now .notBinary
    | malformed error => exact throw_lived hr now (.malformed error)
    | message message =>
        cases hst : s.snapshot.status with
        | connecting => exact handshake_lived now hr hs hm (Or.inl hst)
        | reconnecting => exact handshake_lived now hr hs hm (Or.inr hst)
        | rejected | error => exact .silent hpop
        | connected =>
            cases message with
            | ping => exact chained_lived received.socket hpop (send_carried _ _ rfl)
            | agentRequest request =>
                exact chained_lived received.socket hpop
                  (enqueue_carried (s := { s with receiving := rest }) hs request)
            | cancelRequest requestId attempt =>
                exact chained_lived received.socket hpop (cancel_carried _ requestId attempt now)
            | paired serverId clientId credential sessionId vapidPublicKey =>
                exact throw_lived hr now .lateHandshake
            | authenticated serverId sessionId vapidPublicKey => exact throw_lived hr now .lateHandshake
            | rejected => exact throw_lived hr now .lateHandshake
  · exact .silent hpop

theorem opened_lived {s : RemoteSession} {socket : SocketId} {w : WebSocket}
    (hw : s.sockets socket = some w) (hstate : w.readyState = .connecting) :
    Lived env s (.opened socket) ((s.setReadyState socket w .open).opened env socket w).1
      ((s.setReadyState socket w .open).opened env socket w).2 := by
  have hopen : Tended (.opened socket) s (s.setReadyState socket w .open) := by
    refine .of_aged rfl (aged_setReadyState hw ?_) id rfl (Or.inl rfl)
    rintro (hs | hs)
    · cases hstate.symm.trans hs
    · cases hstate.symm.trans hs
  have hsend := @send_carried env (s.setReadyState socket w .open) socket w.greeting
    (answers_greeting w)
  rw [RemoteSession.opened]
  cases hthrown : ((s.setReadyState socket w .open).send env socket w.greeting).thrown with
  | none => exact hsend.lived hopen
  | some cause => exact fail_lived (hopen.kept hsend.kept) socket cause

/-- A handler settles: its entry is released, and a throw is kept for later. -/
theorem handled_lived {action : ClientAction} {s : RemoteSession} {r : Outcome} (token : Nat)
    (h : Handler) (hr : Carried env (s.release token) r) :
    Tended action s (r.handled token h).1 ∧
      ∀ o ∈ (r.handled token h).2, Plain env (r.handled token h).1 o := by
  have hrel : Tended action s (s.release token) := .of_kept ⟨rfl, rfl, rfl, rfl, rfl, id⟩
  have hplain : ∀ o ∈ r.outputs, Plain env r.session o := fun o ho =>
    plain_congr hr.kept.socket hr.kept.ready (hr.plain o ho)
  rw [Outcome.handled]
  cases r.thrown with
  | none => exact ⟨hrel.kept hr.kept, hplain⟩
  | some cause =>
      refine ⟨(hrel.kept hr.kept).kept ⟨rfl, rfl, rfl, rfl, rfl, id⟩, ?_⟩
      intro o ho
      exact plain_congr rfl rfl (hplain o ho)

/-- A handler resolves: it answers, or what it resolved to is dropped. -/
theorem resolved_lived {s : RemoteSession} {token : Nat} {h : Handler} (packet : Bytes)
    (hh : s.handlers.get? token = some h) (hlive : h.thrown = none) :
    Lived env s (.resolved token packet)
      (((s.release token).respond env h packet).handled token h).1
      (.resolved h.socket h.pending.request packet ::
        (((s.release token).respond env h packet).handled token h).2) := by
  have hdropped : ∀ r : Outcome, r.outputs = [] → Carried env (s.release token) r →
      Lived env s (.resolved token packet) (r.handled token h).1
        (.resolved h.socket h.pending.request packet :: (r.handled token h).2) := by
    intro r hr hcar
    obtain ⟨htended, hplain⟩ := @handled_lived env (.resolved token packet) s r token h hcar
    refine .tended htended ?_
    intro o ho
    rcases List.mem_cons.mp ho with rfl | ho
    · trivial
    · exact hplain o ho
  rcases @respond_cases env (s.release token) h packet with
    heq | ⟨cause, heq⟩ | ⟨hs, _, htok, heq⟩
  · rw [heq]
    exact hdropped _ rfl (.silent (.refl _) none)
  · rw [heq]
    exact hdropped _ rfl (.silent (.refl _) (some cause))
  · rw [heq]
    exact .answered hh hlive hs htok rfl

/-- An answer leaves the connection alone. -/
theorem answered_tended {s s' : RemoteSession} {token : Nat} {h : Handler} (action : ClientAction)
    (heq : s' = { s with
      pending := s.pending.erase (requestKey h.pending.request)
      handlers := s.handlers.erase token }.pendingChanged) : Tended action s s' := by
  rw [heq]
  exact .of_kept (pendingChanged_kept rfl rfl rfl rfl rfl)

theorem setReady_lived (s : RemoteSession) (ready : Bool) :
    Lived env s (.setReady ready) (s.setReady env ready).1 (s.setReady env ready).2 := by
  have hset : Tended (.setReady ready) s { s with ready := ready } :=
    .of_aged rfl (.of_eq rfl) id rfl (Or.inl rfl)
  rw [RemoteSession.setReady]
  split
  · exact .silent hset
  · rename_i socket hs
    split
    · refine exposed_lived hset ((send_carried _ socket (answers_availability ready)).andThen ?_)
      intro t ht
      split
      · exact drain_carried (ht.socket.trans hs)
      · exact .silent (.refl t) none
    · exact .silent hset

theorem registerPushSubscription_lived (s : RemoteSession) (subscription : PushSubscription) :
    Lived env s (.registerPushSubscription subscription)
      (s.registerPushSubscription env subscription).1
      (s.registerPushSubscription env subscription).2 := by
  have hrefused : Lived env s (.registerPushSubscription subscription) s
      [.threw .notConnected] := by
    refine .tended (.refl _ s) ?_
    intro o ho
    rw [List.mem_singleton.mp ho]
    trivial
  rw [RemoteSession.registerPushSubscription]
  split
  · exact hrefused
  · split
    · exact exposed_lived (.refl _ s) (send_carried s _ rfl)
    · exact hrefused

theorem setIdentities_lived (s : RemoteSession) (identities : List AgentIdentity) :
    Lived env s (.setIdentities identities) (s.setIdentities env identities).1
      (s.setIdentities env identities).2 := by
  have hset : Tended (.setIdentities identities) s { s with identities := identities } :=
    .of_aged rfl (.of_eq rfl) id rfl (Or.inl rfl)
  rw [RemoteSession.setIdentities]
  split
  · exact .silent hset
  · split
    · exact exposed_lived hset (send_carried _ _ rfl)
    · exact .silent hset

/-- The save of a pairing succeeds. -/
theorem paired_lived {s : RemoteSession} {socket : SocketId} {pairing : PairingRecord}
    {sessionId : SessionId} {vapidPublicKey : Bytes}
    (hc : s.chain = .saving socket pairing sessionId vapidPublicKey) :
    let r := (({ s with chain := .idle } : RemoteSession).paired env socket pairing sessionId
      vapidPublicKey).chained socket
    Lived env s (.saved none) r.1 r.2 := by
  show Lived env s _ _ _
  rw [RemoteSession.paired]
  split
  · rename_i hs
    refine connected_lived (t := { s with chain := .idle, pairing := some pairing }) hs
      (.paired hc) ?_ rfl
    exact .of_aged rfl (.of_eq rfl) id rfl (Or.inr (fun _ _ _ _ hn => by cases hn))
  · exact .silent (.of_aged rfl (.of_eq rfl) id rfl (Or.inr (fun _ _ _ _ hn => by cases hn)))

theorem formal_one {o : ClientOutput} (ho : formal o = true) : ∀ x ∈ [o], formal x = true := by
  intro x hx
  rw [List.mem_singleton.mp hx]
  exact ho

theorem openSocket_formal (s : RemoteSession) : ∀ o ∈ s.openSocket.2, formal o = true := by
  rcases openSocket_cases s with ⟨heq, _⟩ | ⟨opening, _, heq⟩
  · rw [heq]
    intro _ ho
    cases ho
  · rw [heq]
    exact formal_one rfl

theorem Gone.formal {s s' : RemoteSession} {outputs : List ClientOutput} (hg : Gone s s' outputs) :
    ∀ o ∈ outputs, formal o = true := by
  intro o ho
  rw [hg.outputs, RemoteSession.disconnects] at ho
  rcases List.mem_append.mp ho with ho | ho
  · obtain ⟨_, _, rfl⟩ := List.mem_map.mp ho
    rfl
  · split at ho
    · rw [List.mem_singleton.mp ho]
      rfl
    · cases ho

theorem followedBy_formal {r : RemoteSession × List ClientOutput}
    {next : RemoteSession → RemoteSession × List ClientOutput}
    (hr : ∀ o ∈ r.2, formal o = true) (hnext : ∀ o ∈ (next r.1).2, formal o = true) :
    ∀ o ∈ (followedBy r next).2, formal o = true := by
  intro o ho
  rcases List.mem_append.mp ho with ho | ho
  · exact hr o ho
  · exact hnext o ho

/-- The calls do nothing but decide about the connection. -/
theorem called_formal {s s' : RemoteSession} {action : ClientAction} {outputs : List ClientOutput}
    (hcall : isCall action = true) (h : ClientStepped env s action s' outputs) :
    ∀ o ∈ outputs, formal o = true := by
  cases h with
  | connect endpoint label =>
      rw [RemoteSession.connect]
      split
      · exact formal_one rfl
      · exact followedBy_formal (restart_gone _ _).formal (openSocket_formal _)
  | setActive active =>
      rw [RemoteSession.setActive]
      split
      · intro _ ho
        cases ho
      · split
        · split
          · intro _ ho
            cases ho
          · exact openSocket_formal _
        · exact (restart_gone _ _).formal
  | forgetPairing endpoint =>
      rw [RemoteSession.forgetPairing]
      split
      · exact formal_one rfl
      · exact followedBy_formal (restart_gone _ _).formal (formal_one rfl)
  | retry _ => exact openSocket_formal _
  | loaded _ hload =>
      cases hload with
      | ignored _ | broken _ _ =>
          intro _ ho
          cases ho
      | adopted _ _ _ => exact formal_one rfl
  | deleted _ hdeleted =>
      cases hdeleted with
      | failed error => exact formal_one rfl
      | reopened _ => exact openSocket_formal _
      | left _ =>
          intro _ ho
          cases ho
  | _ => cases hcall

/-- **Every turn** tends the connection, loses it, completes a handshake, or is a
    call that decides about it. -/
theorem step_lived {s s' : RemoteSession} {action : ClientAction} {outputs : List ClientOutput}
    (h : s.step env action = some (s', outputs)) : Lived env s action s' outputs := by
  cases client_step_cases h with
  | connect _ _ | setActive _ | forgetPairing _ | retry _ | loaded _ _ | deleted _ _ =>
      exact .called rfl (called_formal rfl (client_step_cases h))
  | setReady ready => exact setReady_lived s ready
  | registerPushSubscription subscription => exact registerPushSubscription_lived s subscription
  | setIdentities identities => exact setIdentities_lived s identities
  | opened hw hstate => exact opened_lived hw hstate
  | message _ _ =>
      refine .silent ⟨rfl, .of_eq rfl, id, ?_, fun _ _ _ _ => Or.inl⟩
      intro r hmem
      rcases List.mem_append.mp hmem with hmem | hmem
      · exact Or.inl hmem
      · rw [List.mem_singleton.mp hmem]
        exact Or.inr rfl
  | @errored socket _ => exact connectionLost_lived (.refl _ s) socket
  | closing socket =>
      exact .silent (.of_aged rfl (aged_closeWebSocket s socket) id rfl (Or.inl rfl))
  | @closed socket w hw _ =>
      have hshut : Tended (.closed socket) s (s.setReadyState socket w .closed) :=
        .of_aged rfl (aged_setReadyState hw (fun _ => Or.inr rfl)) id rfl (Or.inl rfl)
      exact connectionLost_lived hshut socket
  | @receive now _ _ _ hr => exact receive_lived now hr
  | @saveFailed socket _ _ _ error _ =>
      exact .silent ((Tended.refl _ s).failing socket (.store error))
  | saved hc => exact paired_lived hc
  | @caught socket cause _ =>
      have hidle : Tended .caught s { s with chain := .idle } :=
        .of_aged rfl (.of_eq rfl) id rfl (Or.inr (fun _ _ _ _ hn => by cases hn))
      exact fail_lived hidle socket cause
  | resolved hh => exact resolved_lived _ hh rfl
  | @rejected token error socket pending _ =>
      obtain ⟨htended, hplain⟩ := @handled_lived env (.rejected token error) s _ token
        ⟨socket, pending, none⟩ (.silent (.refl (s.release token)) (some (.handler error)))
      exact .tended htended hplain
  | @handlerCaught token socket _ cause _ =>
      have hrel : Tended (.handlerCaught token) s (s.release token) :=
        .of_aged rfl (.of_eq rfl) id rfl (Or.inl rfl)
      exact fail_lived hrel socket cause

end Methods

end Lifecycle
